import MMRelay.Loader.Filter

/-!
# Installing the requirements of a plugin

`_install_requirements_for_repo` (`plugin_loader.py`) with `_merge_staged_dependency_target` and
`_metadata_distribution_key`, for any outcome of pip and any failure of the operating system.

* `Item`, `InstallEnv`, `RunOutcome`, `OsStep`;
* `metadataDistributionKey`, `mergeStagedDependencyTarget`, `installRequirementsForRepo`;
* `NoEscape`, `noEscape_bind`: computations whose exceptions are all caught;
* `Raises`: computations that raise exceptions of one kind;
* `Reached`, `noEscape_installPackages_iff`: the steps that are reached;
* **`install_total_iff`**: the call returns if and only if the requirement files can be decoded and
  tokenised, do not nest too deep, and no step that is reached raises what is not caught.
-/

namespace MMRelay.Loader

/-! ## Merging the staged packages -/

/-- An entry of a dependency directory. -/
structure Item where
  name : Text
  /-- What iterating over its metadata file yields; `none` when that cannot be opened. -/
  metadata : Option TextFile
  /-- `_is_namespace_package_directory`. -/
  namespaceDir : Bool
  /-- What listing the target directory for it raises. -/
  listing : Option Exc
  /-- What removing it raises. -/
  removal : Option Exc
  /-- What putting it in the place of the one that is there raises. -/
  move : Option Exc
  deriving DecidableEq

/-- A step of the operating system with its outcome. -/
def attempt : Option Exc → Except Exc Unit
  | none => .ok ()
  | some e => .error e

/-- One character of `re.sub(r"[-_.]+", "-", name)` before the rest. -/
def normalizeChar (c : Char) (rest : Text) : Text :=
  if c = '-' ∨ c = '_' ∨ c = '.' then
    match rest with
    | '-' :: _ => rest
    | _ => '-' :: rest
  else c :: rest

/-- `_normalize_distribution_name`. -/
def normalizeDistributionName (name : Text) : Text := lower (name.foldr normalizeChar [])

/-- The suffix of a metadata directory. -/
def metadataSuffix? (name : Text) : Option Text :=
  [".dist-info".toList, ".egg-info".toList].find? fun suffix => suffix.isSuffixOf name

/-- `line.partition(":")[2].strip()` of a line that begins with `name:`. -/
def nameOfLine (line : Text) : Option Text :=
  if startsWith "name:" (lower line) then some (stripChars ((line.dropWhile (· ≠ ':')).drop 1))
  else none

/-- `_metadata_distribution_key`. -/
def metadataDistributionKey (item : Item) : Except Exc (Option Text) :=
  match metadataSuffix? item.name with
  | none => .ok none
  | some suffix =>
    let fallback := normalizeDistributionName
      ((item.name.take (item.name.length - suffix.length)).takeWhile (· ≠ '-'))
    match item.metadata with
    | none => .ok (some fallback)
    | some file =>
      match file.lines.findSome? nameOfLine with
      | some name => .ok (some (normalizeDistributionName name))
      | none => if file.undecodable then .error .unicodeDecodeError else .ok (some fallback)

/-- One turn of the loop of `_remove_stale_dependency_metadata`; `kept` is what stays. -/
def removeStale (staged : Item) (key : Text) (kept : List Item) (existing : Item) :
    Except Exc (List Item) :=
  if existing.name = staged.name then .ok (kept ++ [existing])
  else do
    let k ← metadataDistributionKey existing
    if k ≠ some key then .ok (kept ++ [existing])
    else do
      attempt existing.removal
      .ok kept

/-- `_remove_stale_dependency_metadata`. -/
def removeStaleDependencyMetadata (target : List Item) (staged : Item) :
    Except Exc (List Item) := do
  match ← metadataDistributionKey staged with
  | none => return target
  | some key =>
    if key.isEmpty then return target
    else do
      attempt staged.listing
      target.foldlM (removeStale staged key) []

/-- What the staged item becomes beside what is there; two namespace packages are merged. -/
def placed (staged : Item) (existing : Option Item) : Item :=
  match existing with
  | none => staged
  | some e =>
    if staged.namespaceDir && e.namespaceDir then
      { staged with
        metadata := staged.metadata.or e.metadata
        removal := staged.removal.or e.removal }
    else staged

/-- `_replace_dependency_target_item`. -/
def replaceDependencyTargetItem (target : List Item) (staged : Item) : Except Exc (List Item) := do
  attempt staged.move
  .ok (target.filter (fun e => e.name ≠ staged.name) ++
    [placed staged (target.find? fun e => e.name = staged.name)])

/-- One turn of the loop of `_merge_staged_dependency_target`. -/
def mergeItem (target : List Item) (staged : Item) : Except Exc (List Item) := do
  let target ← removeStaleDependencyMetadata target staged
  replaceDependencyTargetItem target staged

/-! ## The call -/

/-- `except (OSError, CalledProcessError, TimeoutExpired)`. -/
def Exc.caught : Exc → Bool
  | .osError => true
  | .calledProcessError => true
  | .timeoutExpired => true
  | _ => false

/-- The steps of the operating system on the way. -/
inductive OsStep
  | makeStagingParent
  | makeStaging
  | writeRequirements
  | makeTarget
  | refreshPaths
  | writeMarker
  deriving DecidableEq

/-- The outcome of `_run`. -/
inductive RunOutcome
  | success
  | exitStatus
  | timeout
  | cannotStart
  deriving DecidableEq

/-- What the call meets besides the requirement files. -/
structure InstallEnv where
  config : Py
  /-- `_PLUGIN_DEPS_DIR` is set. -/
  depsDir : Bool
  /-- One of `PIPX_ENVIRONMENT_KEYS` is in the environment. -/
  pipxVariable : Bool
  pipxOnPath : Bool
  /-- What a step raises; the refresh of the paths runs whatever a `.pth` file says. -/
  osRaises : OsStep → Option Exc
  /-- What `shutil.rmtree(staged_dir, ignore_errors=True)` raises: no error of the system. -/
  cleanup : Option { e : Exc // e.caught = false }
  run : RunOutcome
  /-- What a successful pip leaves in the staging directory. -/
  staged : List Item
  target : List Item

namespace InstallEnv

variable (env : InstallEnv)

def os (step : OsStep) : Except Exc Unit := attempt (env.osRaises step)

/-- `_run`. -/
def runPip : Except Exc Unit :=
  match env.run with
  | .success => .ok ()
  | .exitStatus => .error .calledProcessError
  | .timeout => .error .timeoutExpired
  | .cannotStart => .error .osError

/-- `_merge_staged_dependency_target`. -/
def mergeStagedDependencyTarget : Except Exc (List Item) := do
  env.os .makeTarget
  env.staged.foldlM mergeItem env.target

/-- The body of the inner `try` statement. -/
def installStaged : Except Exc Unit := do
  env.os .writeRequirements
  env.runPip
  let _ ← env.mergeStagedDependencyTarget

/-- `finally: shutil.rmtree(staged_dir, ignore_errors=True)`; what that raises replaces the rest. -/
def removingStaged (body : Except Exc Unit) : Except Exc Unit :=
  match env.cleanup with
  | none => body
  | some e => .error e

/-- The installation into the persistent dependency directory. -/
def installIntoDepsDir : Except Exc Unit := do
  env.os .makeStagingParent
  env.os .makeStaging
  env.removingStaged env.installStaged

/-- The installation by pip or pipx into the current environment. -/
def installIntoEnvironment : Except Exc Unit := do
  env.os .writeRequirements
  env.runPip

end InstallEnv

/-- `_installable_requirement_lines`. -/
def installableRequirementLines (requirements : List Text) : List Text :=
  requirements.filter fun requirement => !startsWith "-" requirement

/-- The branches on the installation target; whether packages were installed. -/
def installPackages (env : InstallEnv) (allowed : List Text) : Except Exc Bool :=
  let packages := installableRequirementLines allowed
  if env.depsDir then
    if packages.isEmpty then .ok false else env.installIntoDepsDir.map fun _ => true
  else if env.pipxVariable then
    if !env.pipxOnPath then .error .osError
    else if packages.isEmpty then .ok false
    else env.installIntoEnvironment.map fun _ => true
  else if packages.isEmpty then .ok false
  else env.installIntoEnvironment.map fun _ => true

/-- The body of the `try` statement. -/
def installBody (env : InstallEnv) (files : Files) (room : ℕ) (requirementsPath : AbsPath) :
    Except Exc Unit := do
  let eff ← effectiveRequirements env.config files room requirementsPath
  let installedPackages ← installPackages env eff.allowed
  if installedPackages then env.os .refreshPaths
  env.os .writeMarker

/-- `_install_requirements_for_repo`; the path is that of the repository's requirements file. -/
def installRequirementsForRepo (env : InstallEnv) (files : Files) (room : ℕ)
    (requirementsPath : AbsPath) : Except Exc Bool :=
  if !files.isFile requirementsPath then .ok true
  else
    match installBody env files room requirementsPath with
    | .ok _ => .ok true
    | .error e => if e.caught then .ok false else .error e

/-! ## Computations whose exceptions are all caught -/

section NoEscape

variable {α β : Type}

/-- No exception leaves the `try` statement around the computation. -/
def NoEscape (x : Except Exc α) : Prop := ∀ e, x = .error e → e.caught = true

theorem noEscape_ok (a : α) : NoEscape (.ok a) := fun _ h => by cases h

theorem noEscape_error_iff {e : Exc} : NoEscape (.error e : Except Exc α) ↔ e.caught = true :=
  ⟨fun h => h e rfl, fun h _ heq => Except.error.inj heq ▸ h⟩

theorem noEscape_bind {x : Except Exc α} {f : α → Except Exc β} :
    NoEscape (x >>= f) ↔ NoEscape x ∧ ∀ a, x = .ok a → NoEscape (f a) := by
  cases x with
  | error e =>
    refine ⟨fun h => ⟨fun e' he' => ?_, fun a ha => by cases ha⟩, fun h e' he' => ?_⟩
    · exact h e' (congrArg _ (Except.error.inj he'))
    · exact h.1 e' (congrArg _ (Except.error.inj he'))
  | ok a =>
    refine ⟨fun h => ⟨noEscape_ok a, fun a' ha' => Except.ok.inj ha' ▸ h⟩, fun h => h.2 a rfl⟩

theorem noEscape_map {x : Except Exc α} {f : α → β} : NoEscape (x.map f) ↔ NoEscape x := by
  cases x with
  | error e => exact noEscape_error_iff.trans noEscape_error_iff.symm
  | ok a => exact ⟨fun _ => noEscape_ok a, fun _ => noEscape_ok (f a)⟩

end NoEscape

theorem attempt_eq_ok_iff {x : Option Exc} {u : Unit} : attempt x = .ok u ↔ x = none := by
  cases x <;> simp [attempt]

namespace InstallEnv

variable (env : InstallEnv)

theorem noEscape_runPip : NoEscape env.runPip := by
  unfold runPip
  split
  · exact noEscape_ok ()
  · exact noEscape_error_iff.mpr rfl
  · exact noEscape_error_iff.mpr rfl
  · exact noEscape_error_iff.mpr rfl

theorem runPip_eq_ok_iff {u : Unit} : env.runPip = .ok u ↔ env.run = .success := by
  unfold runPip
  cases env.run <;> simp

theorem noEscape_removingStaged {body : Except Exc Unit} :
    NoEscape (env.removingStaged body) ↔ env.cleanup = none ∧ NoEscape body := by
  unfold removingStaged
  cases env.cleanup with
  | none => simp
  | some e => simp [noEscape_error_iff, e.2]

theorem removingStaged_eq_ok_iff {body : Except Exc Unit} {u : Unit} :
    env.removingStaged body = .ok u ↔ env.cleanup = none ∧ body = .ok u := by
  unfold removingStaged
  cases env.cleanup <;> simp

end InstallEnv

/-! ## Merging -/

section Raises

variable {α β : Type} {E : Exc → Prop}

/-- The computation raises exceptions of one kind only, and what it returns has the property. -/
structure Raises (E : Exc → Prop) (x : Except Exc α) (P : α → Prop) : Prop where
  error : ∀ e, x = .error e → E e
  ok : ∀ a, x = .ok a → P a

theorem Raises.pure {P : α → Prop} {a : α} (h : P a) : Raises E (.ok a) P where
  error _ heq := by cases heq
  ok _ heq := Except.ok.inj heq ▸ h

theorem Raises.raise {e : Exc} (h : E e) (P : α → Prop) : Raises E (.error e) P where
  error _ heq := Except.error.inj heq ▸ h
  ok _ heq := by cases heq

theorem Raises.bind {x : Except Exc α} {f : α → Except Exc β} {P : α → Prop} {Q : β → Prop}
    (hx : Raises E x P) (hf : ∀ a, P a → Raises E (f a) Q) : Raises E (x >>= f) Q := by
  cases x with
  | error e => exact Raises.raise (hx.error e rfl) Q
  | ok a => exact hf a (hx.ok a rfl)

theorem Raises.foldlM {f : β → α → Except Exc β} {P : β → Prop} {xs : List α} {s : β} (hs : P s)
    (hf : ∀ s, ∀ x ∈ xs, P s → Raises E (f s x) P) : Raises E (xs.foldlM f s) P := by
  induction xs generalizing s with
  | nil => exact Raises.pure hs
  | cons x xs ih =>
    rw [List.foldlM_cons]
    refine (hf s x List.mem_cons_self hs).bind fun s' hs' => ?_
    exact ih hs' fun s x hx => hf s x (List.mem_cons_of_mem _ hx)

/-- What goes wrong with an entry is one of the exceptions. -/
structure Mergeable (E : Exc → Prop) (item : Item) : Prop where
  readable : ∀ e, metadataDistributionKey item = .error e → E e
  listable : ∀ e, item.listing = some e → E e
  removable : ∀ e, item.removal = some e → E e
  movable : ∀ e, item.move = some e → E e

/-- All entries of a directory can be merged. -/
def AllMergeable (E : Exc → Prop) (items : List Item) : Prop := ∀ i ∈ items, Mergeable E i

theorem AllMergeable.append {items items' : List Item} (h : AllMergeable E items)
    (h' : AllMergeable E items') : AllMergeable E (items ++ items') := by
  intro i hi
  rcases List.mem_append.mp hi with hi | hi
  · exact h i hi
  · exact h' i hi

theorem AllMergeable.singleton {item : Item} (h : Mergeable E item) : AllMergeable E [item] := by
  intro i hi
  rw [List.mem_singleton.mp hi]
  exact h

theorem raises_attempt {x : Option Exc} (h : ∀ e, x = some e → E e) :
    Raises E (attempt x) fun _ => True := by
  cases x with
  | none => exact Raises.pure trivial
  | some e => exact Raises.raise (h e rfl) _

theorem raises_key {item : Item} (h : Mergeable E item) :
    Raises E (metadataDistributionKey item) fun _ => True where
  error e heq := h.readable e heq
  ok _ _ := trivial

theorem raises_removeStale {staged existing : Item} {key : Text} {kept : List Item}
    (hkept : AllMergeable E kept) (h : Mergeable E existing) :
    Raises E (removeStale staged key kept existing) (AllMergeable E) := by
  have hadd : Raises E (.ok (kept ++ [existing])) (AllMergeable E) :=
    Raises.pure (hkept.append (AllMergeable.singleton h))
  unfold removeStale
  by_cases hname : existing.name = staged.name
  · rw [if_pos hname]
    exact hadd
  · rw [if_neg hname]
    refine (raises_key h).bind fun k _ => ?_
    by_cases hk : k ≠ some key
    · rw [if_pos hk]
      exact hadd
    · rw [if_neg hk]
      exact (raises_attempt h.removable).bind fun _ _ => Raises.pure hkept

theorem raises_removeStaleDependencyMetadata {target : List Item} {staged : Item}
    (htarget : AllMergeable E target) (h : Mergeable E staged) :
    Raises E (removeStaleDependencyMetadata target staged) (AllMergeable E) := by
  unfold removeStaleDependencyMetadata
  refine (raises_key h).bind fun k _ => ?_
  cases k with
  | none => exact Raises.pure htarget
  | some key =>
    simp only
    split_ifs
    · exact Raises.pure htarget
    · refine (raises_attempt h.listable).bind fun _ _ => ?_
      refine Raises.foldlM (fun i hi => by cases hi) fun kept existing hmem hkept => ?_
      exact raises_removeStale hkept (htarget existing hmem)

theorem mergeable_placed {staged : Item} (h : Mergeable E staged) {existing : Option Item}
    (hex : ∀ e, existing = some e → e.name = staged.name ∧ Mergeable E e) :
    Mergeable E (placed staged existing) := by
  unfold placed
  split
  · exact h
  · next e =>
    obtain ⟨hname, he⟩ := hex e rfl
    split_ifs
    · refine ⟨fun x hx => ?_, h.listable, fun x hx => ?_, h.movable⟩
      · cases hm : staged.metadata with
        | some file =>
          refine h.readable x ?_
          rw [← hx]
          unfold metadataDistributionKey
          rw [hm, Option.some_or]
        | none =>
          -- the metadata that was there stays, under the same name
          refine he.readable x ?_
          rw [← hx]
          unfold metadataDistributionKey
          rw [hname, hm, Option.none_or]
      · rcases Option.or_eq_some_iff.mp hx with hx | ⟨-, hx⟩
        · exact h.removable x hx
        · exact he.removable x hx
    · exact h

theorem raises_mergeItem {target : List Item} {staged : Item} (htarget : AllMergeable E target)
    (h : Mergeable E staged) : Raises E (mergeItem target staged) (AllMergeable E) := by
  unfold mergeItem
  refine (raises_removeStaleDependencyMetadata htarget h).bind fun target htarget => ?_
  unfold replaceDependencyTargetItem
  refine (raises_attempt h.movable).bind fun _ _ => ?_
  refine Raises.pure (AllMergeable.append ?_ (AllMergeable.singleton ?_))
  · exact fun i hi => htarget i (List.mem_filter.mp hi).1
  · refine mergeable_placed h fun e he => ⟨?_, htarget e (List.mem_of_find?_eq_some he)⟩
    simpa using List.find?_some he

theorem raises_mergeStagedDependencyTarget {env : InstallEnv}
    (hmake : ∀ e, env.osRaises .makeTarget = some e → E e) (hstaged : AllMergeable E env.staged)
    (htarget : AllMergeable E env.target) :
    Raises E env.mergeStagedDependencyTarget (AllMergeable E) := by
  unfold InstallEnv.mergeStagedDependencyTarget
  refine (raises_attempt hmake).bind fun _ _ => Raises.foldlM htarget fun target staged hmem ht => ?_
  exact raises_mergeItem ht (hstaged staged hmem)

end Raises

/-! ## The requirement lines -/

theorem filterRiskyRequirementLines_isOk_iff (lines : List Text) :
    (∃ r, filterRiskyRequirementLines lines = .ok r) ↔
      ∀ line ∈ lines, (shlexSplit true line).isSome = true := by
  unfold filterRiskyRequirementLines
  refine ⟨fun ⟨r, h⟩ => isSome_of_foldlM h, fun h => ?_⟩
  generalize (([], []) : Classified) = s
  induction lines generalizing s with
  | nil => exact ⟨s, rfl⟩
  | cons l ls ih =>
    obtain ⟨tokens, hlex⟩ := Option.isSome_iff_exists.mp (h l List.mem_cons_self)
    have hl : ∃ s', classifyLine s l = .ok s' := by
      unfold classifyLine
      rw [hlex]
      simp only
      split_ifs
      · exact ⟨_, rfl⟩
      · exact ⟨_, rfl⟩
      · exact ⟨_, rfl⟩
    obtain ⟨s', hs'⟩ := hl
    obtain ⟨r, hr⟩ := ih (fun line hline => h line (List.mem_cons_of_mem _ hline)) s'
    exact ⟨r, by rw [List.foldlM_cons]; exact except_bind_eq_ok.mpr ⟨s', hs', hr⟩⟩

theorem filterRiskyRequirementLines_error {lines : List Text} {e : Exc}
    (h : filterRiskyRequirementLines lines = .error e) : e.caught = false := by
  unfold filterRiskyRequirementLines at h
  generalize (([], []) : Classified) = s at h
  induction lines generalizing s with
  | nil => cases h
  | cons l ls ih =>
    rw [List.foldlM_cons] at h
    cases hl : classifyLine s l with
    | error e' =>
      rw [hl] at h
      obtain rfl := Except.error.inj h
      unfold classifyLine at hl
      split at hl
      · rw [← Except.error.inj hl]
        rfl
      · split_ifs at hl
    | ok s' =>
      rw [hl] at h
      exact ih s' h

theorem openText_error {files : Files} {p : AbsPath} {e : Exc}
    (h : files.openText p = .error e) : e = .osError ∨ e.caught = false := by
  unfold Files.openText at h
  split_ifs at h
  · exact Or.inr (Except.error.inj h ▸ rfl)
  · split at h
    · cases h
    · exact Or.inl (Except.error.inj h).symm

theorem foldlM_collectLine_error {nested : List AbsPath → AbsPath → Except Exc Collected}
    (hnested : ∀ visited p e, nested visited p = .error e → e.caught = false) {baseDir : AbsPath}
    {lines : List Text} {s : Collected} {e : Exc}
    (h : lines.foldlM (collectLine nested baseDir) s = .error e) : e.caught = false := by
  induction lines generalizing s with
  | nil => cases h
  | cons line lines ih =>
    rw [List.foldlM_cons] at h
    cases hl : collectLine nested baseDir s line with
    | error e' =>
      rw [hl] at h
      obtain rfl := Except.error.inj h
      unfold collectLine at hl
      split at hl
      · cases hl
      · cases hl
      · next path _ =>
        cases hr : nested s.2 (baseDir.resolve path) with
        | error e'' =>
          rw [hr] at hl
          exact Except.error.inj hl ▸ hnested _ _ _ hr
        | ok r =>
          rw [hr] at hl
          cases hl
    | ok s' =>
      rw [hl] at h
      exact ih h

/-- Nothing that goes wrong with the requirement files is caught, except that a file cannot be
opened, which the collector catches itself. -/
theorem collectRequirements_error {files : Files} {room : ℕ} {visited : List AbsPath}
    {p : AbsPath} {e : Exc} (h : collectRequirements files room visited p = .error e) :
    e.caught = false := by
  induction room generalizing visited p e with
  | zero =>
    obtain rfl := Except.error.inj h
    rfl
  | succ room ih =>
    unfold collectRequirements at h
    split_ifs at h
    split at h
    · cases h
    · next e' hne hopen =>
      obtain rfl := Except.error.inj h
      exact (openText_error hopen).resolve_left hne
    · next file _ =>
      cases hr : file.lines.foldlM (collectLine (collectRequirements files room) p.dirname)
          ([], p :: visited) with
      | error e' =>
        rw [hr] at h
        obtain rfl := Except.error.inj h
        exact foldlM_collectLine_error (fun _ _ _ => ih) hr
      | ok r =>
        rw [hr] at h
        change (if file.undecodable = true then _ else _) = _ at h
        split_ifs at h
        obtain rfl := Except.error.inj h
        rfl

theorem noEscape_effectiveRequirements_iff {config : Py} {files : Files} {room : ℕ}
    {path : AbsPath} :
    NoEscape (effectiveRequirements config files room path) ↔
      ∃ eff, effectiveRequirements config files room path = .ok eff := by
  constructor
  · intro h
    cases heff : effectiveRequirements config files room path with
    | ok eff => exact ⟨eff, rfl⟩
    | error e =>
      exfalso
      have hcaught := h e heff
      unfold effectiveRequirements at heff
      cases hr : collectRequirements files room [] path with
      | error e' =>
        rw [hr] at heff
        rw [← Except.error.inj heff, collectRequirements_error hr] at hcaught
        cases hcaught
      | ok r =>
        rw [hr] at heff
        change (filterRiskyRequirementLines r.1 >>= _) = _ at heff
        cases hs : filterRiskyRequirementLines r.1 with
        | error e' =>
          rw [hs] at heff
          rw [← Except.error.inj heff, filterRiskyRequirementLines_error hs] at hcaught
          cases hcaught
        | ok s =>
          rw [hs] at heff
          cases heff
  · rintro ⟨eff, h⟩
    rw [h]
    exact noEscape_ok eff

/-! ## The call -/

/-- A requirement line that is allowed and not an option of pip. -/
def HasPackage (config : Py) (files : Files) (path : AbsPath) : Prop :=
  ∃ line, IsRequirement files path line ∧ startsWith "-" line = false ∧
    (SafeLine line ∨ (allowUntrustedDependencies config = true ∧ FlaggedLine line))

theorem hasPackage_iff {config : Py} {files : Files} {room : ℕ} {path : AbsPath}
    {eff : EffectiveRequirements} (h : effectiveRequirements config files room path = .ok eff) :
    HasPackage config files path ↔ installableRequirementLines eff.allowed ≠ [] := by
  unfold effectiveRequirements at h
  obtain ⟨r, hr, h⟩ := except_bind_eq_ok.mp h
  obtain ⟨s, hs, h⟩ := except_bind_eq_ok.mp h
  obtain rfl := Except.ok.inj h
  have hmem : ∀ line, line ∈ (if allowUntrustedDependencies config then s.1 ++ s.2 else s.1) ↔
      IsRequirement files path line ∧
        (SafeLine line ∨ (allowUntrustedDependencies config = true ∧ FlaggedLine line)) := by
    intro line
    obtain ⟨hsafe, hflagged⟩ := mem_filterRiskyRequirementLines hs line
    rw [← mem_collected_iff hr]
    cases allowUntrustedDependencies config with
    | true =>
      rw [if_pos rfl, List.mem_append, hsafe, hflagged, ← and_or_left]
      simp
    | false =>
      rw [if_neg Bool.false_ne_true, hsafe]
      simp
  unfold HasPackage installableRequirementLines
  simp only [ne_eq, List.filter_eq_nil_iff, not_forall, not_not, hmem, Bool.not_eq_true',
    exists_prop]
  refine exists_congr fun line => ?_
  tauto

theorem effectiveRequirements_isOk_iff (config : Py) (files : Files) (room : ℕ) (path : AbsPath) :
    (∃ eff, effectiveRequirements config files room path = .ok eff) ↔
      ((walk (includes files) room [] path).isSome = true ∧
        ∀ p, Reach (includes files) path p → (listings files p).isSome = true) ∧
      ∀ line, IsRequirement files path line → (shlexSplit true line).isSome = true := by
  rw [← collectRequirements_isOk_iff]
  unfold effectiveRequirements
  constructor
  · rintro ⟨eff, h⟩
    obtain ⟨r, hr, h⟩ := except_bind_eq_ok.mp h
    obtain ⟨s, hs, -⟩ := except_bind_eq_ok.mp h
    refine ⟨⟨r, hr⟩, fun line hline => ?_⟩
    exact (filterRiskyRequirementLines_isOk_iff r.1).mp ⟨s, hs⟩ line
      ((mem_collected_iff hr line).mpr hline)
  · rintro ⟨⟨r, hr⟩, hlex⟩
    obtain ⟨s, hs⟩ := (filterRiskyRequirementLines_isOk_iff r.1).mpr fun line hline =>
      hlex line ((mem_collected_iff hr line).mp hline)
    exact ⟨_, except_bind_eq_ok.mpr ⟨r, hr, except_bind_eq_ok.mpr ⟨s, hs, rfl⟩⟩⟩

/-! ### The steps that are reached -/

namespace InstallEnv

variable (env : InstallEnv)

/-- The steps that an exception can come from. -/
inductive Step
  | makeStagingParent
  | makeStaging
  | writeRequirements
  | merge
  | removeStaging
  | refreshPaths
  | writeMarker
  deriving DecidableEq

/-- What a step comes to. -/
def outcome : Step → Except Exc Unit
  | .makeStagingParent => env.os .makeStagingParent
  | .makeStaging => env.os .makeStaging
  | .writeRequirements => env.os .writeRequirements
  | .merge => env.mergeStagedDependencyTarget.map fun _ => ()
  | .removeStaging => env.removingStaged (.ok ())
  | .refreshPaths => env.os .refreshPaths
  | .writeMarker => env.os .writeMarker

/-- The step ends without an exception. -/
def Passes (step : Step) : Prop := env.outcome step = .ok ()

/-- There is somewhere to install to. -/
def HasTarget : Prop := env.depsDir = true ∨ (env.pipxVariable = true → env.pipxOnPath = true)

/-- The staging directory is there, where one is needed. -/
def HasStaging : Prop :=
  env.depsDir = true → env.Passes .makeStagingParent ∧ env.Passes .makeStaging

/-- pip has installed the packages. -/
def PipSucceeds : Prop :=
  env.HasTarget ∧ env.HasStaging ∧ env.Passes .writeRequirements ∧ env.run = .success

/-- The packages are where they belong. -/
def Installed : Prop :=
  env.PipSucceeds ∧ (env.depsDir = true → env.Passes .merge ∧ env.Passes .removeStaging)

/-- The call comes to the step; `packages` says that there are some to install. -/
def Reached (packages : Prop) : Step → Prop
  | .makeStagingParent => packages ∧ env.depsDir = true
  | .makeStaging => packages ∧ env.depsDir = true ∧ env.Passes .makeStagingParent
  | .writeRequirements => packages ∧ env.HasTarget ∧ env.HasStaging
  | .merge => packages ∧ env.depsDir = true ∧ env.PipSucceeds
  | .removeStaging => packages ∧ env.depsDir = true ∧ env.HasStaging
  | .refreshPaths => packages ∧ env.Installed
  | .writeMarker =>
    (packages ∧ env.Installed ∧ env.Passes .refreshPaths) ∨ (¬ packages ∧ env.HasTarget)

/-- No step that is reached raises what is not caught. -/
def Quiet (packages : Prop) : Prop := ∀ step, env.Reached packages step → NoEscape (env.outcome step)

theorem passes_merge_iff :
    env.Passes .merge ↔ ∃ items, env.mergeStagedDependencyTarget = .ok items := by
  unfold Passes outcome
  cases env.mergeStagedDependencyTarget <;> simp [Except.map]

theorem os_eq_ok_iff {step : OsStep} {u : Unit} : env.os step = .ok u ↔ env.osRaises step = none :=
  attempt_eq_ok_iff

theorem installStaged_eq_ok_iff {u : Unit} : env.installStaged = .ok u ↔
    env.Passes .writeRequirements ∧ env.run = .success ∧ env.Passes .merge := by
  rw [passes_merge_iff]
  unfold installStaged
  simp [except_bind_eq_ok, runPip_eq_ok_iff, Passes, outcome, os_eq_ok_iff, pure, Except.pure]

theorem noEscape_installStaged_iff : NoEscape env.installStaged ↔
    NoEscape (env.outcome .writeRequirements) ∧
      (env.Passes .writeRequirements → env.run = .success → NoEscape (env.outcome .merge)) := by
  unfold installStaged Passes
  simp only [noEscape_bind, env.noEscape_runPip, env.runPip_eq_ok_iff, outcome, noEscape_map,
    true_and, forall_const]
  simp [os_eq_ok_iff, pure, Except.pure, noEscape_ok]

theorem installIntoDepsDir_eq_ok_iff (hdeps : env.depsDir = true) {u : Unit} :
    env.installIntoDepsDir = .ok u ↔ env.Installed := by
  unfold installIntoDepsDir Installed PipSucceeds HasStaging HasTarget
  simp only [except_bind_eq_ok, removingStaged_eq_ok_iff, installStaged_eq_ok_iff]
  simp [Passes, outcome, removingStaged_eq_ok_iff, os_eq_ok_iff, hdeps]
  tauto

/-- The steps of the installation itself are quiet. -/
def InstallQuiet (packages : Prop) : Prop :=
  ∀ step, step ≠ .refreshPaths → step ≠ .writeMarker → env.Reached packages step →
    NoEscape (env.outcome step)

theorem noEscape_installIntoDepsDir_iff (hdeps : env.depsDir = true) {packages : Prop}
    (hpackages : packages) :
    NoEscape env.installIntoDepsDir ↔ env.InstallQuiet packages := by
  unfold installIntoDepsDir
  simp only [noEscape_bind, noEscape_removingStaged, noEscape_installStaged_iff]
  constructor
  · rintro ⟨hparent, hrest⟩ step hrefresh hmarker hreach
    cases step with
    | makeStagingParent => exact hparent
    | makeStaging => exact (hrest () hreach.2.2).1
    | writeRequirements =>
      obtain ⟨hp, hs⟩ := hreach.2.2 hdeps
      exact ((hrest () hp).2 () hs).2.1
    | merge =>
      obtain ⟨-, hstaging, hwrite, hrun⟩ := hreach.2.2
      obtain ⟨hp, hs⟩ := hstaging hdeps
      exact ((hrest () hp).2 () hs).2.2 hwrite hrun
    | removeStaging =>
      obtain ⟨hp, hs⟩ := hreach.2.2 hdeps
      exact env.noEscape_removingStaged.mpr ⟨((hrest () hp).2 () hs).1, noEscape_ok ()⟩
    | refreshPaths => exact absurd rfl hrefresh
    | writeMarker => exact absurd rfl hmarker
  · intro h
    have hparent := h .makeStagingParent (by decide) (by decide) ⟨hpackages, hdeps⟩
    refine ⟨hparent, fun _ hp => ?_⟩
    refine ⟨h .makeStaging (by decide) (by decide) ⟨hpackages, hdeps, hp⟩, fun _ hs => ?_⟩
    have hstaging : env.HasStaging := fun _ => ⟨hp, hs⟩
    refine ⟨?_, h .writeRequirements (by decide) (by decide) ⟨hpackages, Or.inl hdeps, hstaging⟩, ?_⟩
    · exact (env.noEscape_removingStaged.mp
        (h .removeStaging (by decide) (by decide) ⟨hpackages, hdeps, hstaging⟩)).1
    · intro hwrite hrun
      exact h .merge (by decide) (by decide)
        ⟨hpackages, hdeps, Or.inl hdeps, hstaging, hwrite, hrun⟩

theorem noEscape_installIntoEnvironment_iff (hdeps : env.depsDir = false) (htarget : env.HasTarget)
    {packages : Prop} (hpackages : packages) :
    NoEscape env.installIntoEnvironment ↔ env.InstallQuiet packages := by
  have hno : env.depsDir ≠ true := ne_true_of_eq_false hdeps
  unfold installIntoEnvironment
  rw [noEscape_bind, and_iff_left fun _ _ => env.noEscape_runPip]
  constructor
  · intro hwrite step hrefresh hmarker hreach
    cases step with
    | makeStagingParent => exact absurd hreach.2 hno
    | makeStaging => exact absurd hreach.2.1 hno
    | writeRequirements => exact hwrite
    | merge => exact absurd hreach.2.1 hno
    | removeStaging => exact absurd hreach.2.1 hno
    | refreshPaths => exact absurd rfl hrefresh
    | writeMarker => exact absurd rfl hmarker
  · intro h
    exact h .writeRequirements (by decide) (by decide)
      ⟨hpackages, htarget, fun hdeps => absurd hdeps hno⟩

theorem installIntoEnvironment_eq_ok_iff (hdeps : env.depsDir = false) (htarget : env.HasTarget)
    {u : Unit} : env.installIntoEnvironment = .ok u ↔ env.Installed := by
  unfold installIntoEnvironment Installed PipSucceeds HasStaging
  simp [except_bind_eq_ok, runPip_eq_ok_iff, os_eq_ok_iff, Passes, outcome, hdeps, htarget]

theorem installQuiet_of_not {packages : Prop} (hno : ¬ packages) : env.InstallQuiet packages := by
  intro step hrefresh hmarker hreach
  cases step with
  | writeMarker => exact absurd rfl hmarker
  | _ => exact absurd hreach.1 hno

theorem installQuiet_of_noTarget {packages : Prop} (hno : ¬ env.HasTarget) :
    env.InstallQuiet packages := by
  have hdeps : env.depsDir ≠ true := fun h => hno (Or.inl h)
  intro step hrefresh hmarker hreach
  cases step with
  | makeStagingParent => exact absurd hreach.2 hdeps
  | makeStaging => exact absurd hreach.2.1 hdeps
  | writeRequirements => exact absurd hreach.2.1 hno
  | merge => exact absurd hreach.2.1 hdeps
  | removeStaging => exact absurd hreach.2.1 hdeps
  | refreshPaths => exact absurd rfl hrefresh
  | writeMarker => exact absurd rfl hmarker

theorem installed_hasTarget (h : env.Installed) : env.HasTarget := h.1.1

end InstallEnv

/-- There are lines to install. -/
def Packages (allowed : List Text) : Prop := installableRequirementLines allowed ≠ []

theorem installPackages_of_packages {env : InstallEnv} {allowed : List Text}
    (h : Packages allowed) : installPackages env allowed =
      if env.depsDir then env.installIntoDepsDir.map fun _ => true
      else if env.pipxVariable && !env.pipxOnPath then .error .osError
      else env.installIntoEnvironment.map fun _ => true := by
  have hne : (installableRequirementLines allowed).isEmpty = false := List.isEmpty_eq_false_iff.mpr h
  unfold installPackages
  cases env.depsDir <;> cases env.pipxVariable <;> cases env.pipxOnPath <;> simp [hne]

theorem installPackages_of_none {env : InstallEnv} {allowed : List Text}
    (h : ¬ Packages allowed) : installPackages env allowed =
      if env.depsDir || !env.pipxVariable || env.pipxOnPath then .ok false else .error .osError := by
  have hnil : installableRequirementLines allowed = [] := not_not.mp h
  unfold installPackages
  cases env.depsDir <;> cases env.pipxVariable <;> cases env.pipxOnPath <;> simp [hnil]

theorem hasTarget_iff {env : InstallEnv} :
    env.HasTarget ↔ (env.depsDir || !env.pipxVariable || env.pipxOnPath) = true := by
  unfold InstallEnv.HasTarget
  cases env.depsDir <;> cases env.pipxVariable <;> cases env.pipxOnPath <;> simp

theorem hasTarget_iff_of_not {env : InstallEnv} (hdeps : ¬ env.depsDir = true) :
    env.HasTarget ↔ ¬ (env.pipxVariable && !env.pipxOnPath) = true := by
  unfold InstallEnv.HasTarget
  cases env.pipxVariable <;> cases env.pipxOnPath <;> simp [hdeps]

theorem noEscape_installPackages_iff (env : InstallEnv) (allowed : List Text) :
    NoEscape (installPackages env allowed) ↔ env.InstallQuiet (Packages allowed) := by
  by_cases hp : Packages allowed
  · rw [installPackages_of_packages hp]
    by_cases hdeps : env.depsDir = true
    · rw [if_pos hdeps, noEscape_map]
      exact env.noEscape_installIntoDepsDir_iff hdeps hp
    · rw [if_neg hdeps]
      by_cases htarget : env.HasTarget
      · rw [if_neg ((hasTarget_iff_of_not hdeps).mp htarget), noEscape_map]
        exact env.noEscape_installIntoEnvironment_iff (eq_false_of_ne_true hdeps) htarget hp
      · rw [if_pos (not_not.mp (mt (hasTarget_iff_of_not hdeps).mpr htarget))]
        exact iff_of_true (noEscape_error_iff.mpr rfl) (env.installQuiet_of_noTarget htarget)
  · rw [installPackages_of_none hp]
    refine iff_of_true ?_ (env.installQuiet_of_not hp)
    split_ifs
    · exact noEscape_ok false
    · exact noEscape_error_iff.mpr rfl

theorem installPackages_eq_ok_iff (env : InstallEnv) (allowed : List Text) (installed : Bool) :
    installPackages env allowed = .ok installed ↔
      (installed = true ∧ Packages allowed ∧ env.Installed) ∨
        (installed = false ∧ ¬ Packages allowed ∧ env.HasTarget) := by
  by_cases hp : Packages allowed
  · have hbranch : ∀ x : Except Exc Unit, (x.map fun _ => true) = .ok installed ↔
        installed = true ∧ x = .ok () := by
      intro x
      cases x <;> cases installed <;> simp [Except.map]
    simp only [hp, not_true_eq_false, false_and, and_false, or_false, true_and]
    rw [installPackages_of_packages hp]
    by_cases hdeps : env.depsDir = true
    · rw [if_pos hdeps, hbranch, env.installIntoDepsDir_eq_ok_iff hdeps]
    · rw [if_neg hdeps]
      by_cases htarget : env.HasTarget
      · rw [if_neg ((hasTarget_iff_of_not hdeps).mp htarget), hbranch,
          env.installIntoEnvironment_eq_ok_iff (eq_false_of_ne_true hdeps) htarget]
      · rw [if_pos (not_not.mp (mt (hasTarget_iff_of_not hdeps).mpr htarget))]
        refine iff_of_false (fun h => by cases h) fun h => htarget (env.installed_hasTarget h.2)
  · simp only [hp, not_false_eq_true, false_and, and_false, false_or, true_and]
    rw [installPackages_of_none hp, hasTarget_iff]
    split_ifs with h
    · simp [h, eq_comm]
    · simp [h]

/-! ### The call -/

/-- What the call needs to return. -/
structure Handled (env : InstallEnv) (files : Files) (room : ℕ) (path : AbsPath) : Prop where
  depth : (walk (includes files) room [] path).isSome = true
  /-- The files that are reached have paths that can be opened and are UTF-8. -/
  decodes : ∀ p, Reach (includes files) path p → p.hasNul = false ∧
    ∀ bs, files.entry p = some (.bytes bs) →
      (TextFile.ofBytes files.chunkSize bs).undecodable = false
  quotes : ∀ line, IsRequirement files path line → (shlexSplit true line).isSome = true
  quiet : env.Quiet (HasPackage env.config files path)

/-- What follows the requirement lines raises only what is caught if and only if the steps do. -/
theorem noEscape_install_iff (env : InstallEnv) (allowed : List Text) :
    NoEscape (do
      let installedPackages ← installPackages env allowed
      if installedPackages then env.os .refreshPaths
      env.os .writeMarker) ↔ env.Quiet (Packages allowed) := by
  rw [noEscape_bind, noEscape_installPackages_iff]
  simp only [installPackages_eq_ok_iff]
  constructor
  · rintro ⟨hquiet, hrest⟩ step hreach
    by_cases hrefresh : step = .refreshPaths
    · subst hrefresh
      exact (noEscape_bind.mp (hrest true (Or.inl ⟨rfl, hreach⟩))).1
    by_cases hmarker : step = .writeMarker
    · subst hmarker
      rcases hreach with ⟨hpackages, hinstalled, hpass⟩ | ⟨hnone, htarget⟩
      · exact (noEscape_bind.mp (hrest true (Or.inl ⟨rfl, hpackages, hinstalled⟩))).2 () hpass
      · exact hrest false (Or.inr ⟨rfl, hnone, htarget⟩)
    exact hquiet step hrefresh hmarker hreach
  · intro h
    refine ⟨fun step _ _ hreach => h step hreach, fun installed hinstalled => ?_⟩
    rcases hinstalled with ⟨rfl, hreach⟩ | ⟨rfl, hreach⟩
    · refine noEscape_bind.mpr ⟨h .refreshPaths hreach, fun _ hpass => ?_⟩
      exact h .writeMarker (Or.inl ⟨hreach.1, hreach.2, hpass⟩)
    · exact h .writeMarker (Or.inr hreach)

theorem noEscape_installBody_iff (env : InstallEnv) (files : Files) (room : ℕ) (path : AbsPath) :
    NoEscape (installBody env files room path) ↔ Handled env files room path := by
  unfold installBody
  rw [noEscape_bind, noEscape_effectiveRequirements_iff]
  constructor
  · rintro ⟨hok, hrest⟩
    obtain ⟨eff, heff⟩ := hok
    obtain ⟨⟨hdepth, hopens⟩, hquotes⟩ :=
      (effectiveRequirements_isOk_iff env.config files room path).mp ⟨eff, heff⟩
    refine ⟨hdepth, fun p hp => (listings_isSome_iff files p).mp (hopens p hp), hquotes, ?_⟩
    rw [hasPackage_iff heff]
    exact (noEscape_install_iff env eff.allowed).mp (hrest eff heff)
  · rintro ⟨hdepth, hdecodes, hquotes, hquiet⟩
    refine ⟨(effectiveRequirements_isOk_iff env.config files room path).mpr
      ⟨⟨hdepth, fun p hp => (listings_isSome_iff files p).mpr (hdecodes p hp)⟩, hquotes⟩, ?_⟩
    intro eff heff
    rw [hasPackage_iff heff] at hquiet
    exact (noEscape_install_iff env eff.allowed).mpr hquiet


theorem install_isOk_iff (env : InstallEnv) (files : Files) (room : ℕ) (path : AbsPath) :
    (∃ b, installRequirementsForRepo env files room path = .ok b) ↔
      (files.isFile path = true → Handled env files room path) := by
  rw [← noEscape_installBody_iff]
  unfold installRequirementsForRepo
  cases files.isFile path with
  | false => simp
  | true =>
    simp only [Bool.not_true, Bool.false_eq_true, if_false, forall_const]
    cases hbody : installBody env files room path with
    | ok u => exact ⟨fun _ => noEscape_ok u, fun _ => ⟨true, rfl⟩⟩
    | error e =>
      rw [noEscape_error_iff]
      simp only
      constructor
      · rintro ⟨b, hb⟩
        by_contra hno
        rw [if_neg hno] at hb
        cases hb
      · intro hcaught
        exact ⟨false, if_pos hcaught⟩

/-- **Handling requirements.** With room for as many nested calls as there are files the collector
does not run out of it; the call returns if and only if there is no requirements file or what it
reaches can be handled; and merging raises only what is caught where the entries do. -/
theorem install_total_iff (env : InstallEnv) (files : Files) (room : ℕ) (path : AbsPath) :
    (files.paths.length < room →
      collectRequirements files room [] path ≠ .error .recursionError ∧
        (walk (includes files) room [] path).isSome = true) ∧
    ((∃ b, installRequirementsForRepo env files room path = .ok b) ↔
      (files.isFile path = true → Handled env files room path)) ∧
    ((∀ e, env.osRaises .makeTarget = some e → e.caught = true) →
      AllMergeable (fun e => e.caught = true) env.staged →
        AllMergeable (fun e => e.caught = true) env.target → NoEscape (env.outcome .merge)) := by
  refine ⟨fun hroom => ⟨collectRequirements_terminates files hroom path, ?_⟩,
    install_isOk_iff env files room path, fun hmake hstaged htarget => ?_⟩
  swap
  · exact noEscape_map.mpr (raises_mergeStagedDependencyTarget hmake hstaged htarget).error
  have hnodes : ∀ p, includes files p ≠ [] → p ∈ files.paths := by
    intro p hp
    cases hopen : files.openText p with
    | ok file => exact mem_paths_of_openText hopen
    | error e =>
      exfalso
      apply hp
      unfold includes nestedNodes listings
      rw [hopen]
      cases e <;> rfl
  exact walk_isSome hnodes (Nat.lt_of_le_of_lt (List.length_filter_le _ _) hroom) path

/-! ## An unbalanced quote -/

def requirementsPath : AbsPath := ⟨false, ["plugin".toList, "requirements.txt".toList]⟩

/-- A repository with one requirements file. -/
def oneFile (content : String) : Files where
  entry p := if p = requirementsPath then some (.bytes (utf8Encode content)) else none
  paths := [requirementsPath]
  complete := by
    intro p hp
    by_cases h : p = requirementsPath
    · rw [h]
      exact List.mem_singleton_self _
    · rw [if_neg h] at hp
      exact absurd rfl hp
  chunkSize := 8192

/-- A persistent dependency directory and a pip that works. -/
def quietEnv : InstallEnv where
  config := .dict []
  depsDir := true
  pipxVariable := false
  pipxOnPath := false
  osRaises _ := none
  cleanup := none
  run := .success
  staged := []
  target := []

example : installRequirementsForRepo quietEnv (oneFile "requests\n-r other.txt\n") 100
    requirementsPath = .ok true := by decide +kernel

/-- A quote that is not closed aborts the call. -/
theorem unclosedQuote_raises :
    ¬ ∃ b, installRequirementsForRepo quietEnv (oneFile "requests\"\n") 100 requirementsPath =
      .ok b := by
  have h : installRequirementsForRepo quietEnv (oneFile "requests\"\n") 100 requirementsPath =
      .error .valueError := by decide +kernel
  rintro ⟨b, hb⟩
  rw [h] at hb
  cases hb

end MMRelay.Loader
