import MMRelay.Loader.Requirements
import Mathlib.Logic.Function.Basic

/-!
# Cloning and updating a community plugin

From an entry of the configuration to its directory: `_validate_clone_inputs`,
`_get_repo_name_from_url`, `_is_safe_plugin_name`, `clone_or_update_repo` and the body of the loop
of `load_plugins` that calls them (`plugin_loader.py`), for any outcome of the git commands.

* `repoNameFromUrl`: the directory's name, the last component of the URL;
* `Dir`, `Content`: what the community plugin directory holds;
* `CloneOutcome`, `SyncEnv`: what git does;
* `validateCloneInputs_validated`: what is valid is valid again, as the same values;
* `syncEntry_of_checkout`: a checkout stays one of the same repository;
* **`placed_of_sync_iff`**: an entry that is ready has a working copy of its repository, exactly if
  the directory that was updated had been one.
-/

namespace MMRelay.Loader

/-! ## Names -/

/-- A scheme that is cut off by `urlsplit`. -/
def dropScheme (url : Text) : Text :=
  match url.takeWhile (· ≠ ':'), url.dropWhile (· ≠ ':') with
  | c :: cs, _ :: rest =>
    if c.isAlpha && (c :: cs).all fun c => c.isAlphanum || c = '+' || c = '-' || c = '.' then rest
    else url
  | _, _ => url

/-- The network location that is cut off by `urlsplit`. -/
def dropNetloc : Text → Text
  | '/' :: '/' :: rest => rest.dropWhile fun c => c ≠ '/' && c ≠ '?' && c ≠ '#'
  | url => url

/-- `urlsplit(url).path`. -/
def urlPath (url : Text) : Text :=
  let url := (url.dropWhile fun c => c.toNat ≤ 0x20).filter fun c => c ≠ '\t' && c ≠ '\r' && c ≠ '\n'
  ((dropNetloc (dropScheme url)).takeWhile (· ≠ '#')).takeWhile (· ≠ '?')

/-- `os.path.splitext(name)[0]` of a name without separators. -/
def splitextRoot (name : Text) : Text :=
  let root := (name.rdropWhile (· ≠ '.')).dropLast
  if root.any (· ≠ '.') then root else name

/-- `_get_repo_name_from_url`. -/
def repoNameFromUrl (url : Text) : Option Text :=
  if url = [] then none
  else
    let path := urlPath url
    let rawPath :=
      if path ≠ [] then path
      else if startsWith "git@" url && url.contains ':' then (url.dropWhile (· ≠ ':')).drop 1
      else url
    let name := splitextRoot ((rawPath.rdropWhile (· = '/')).rtakeWhile (· ≠ '/'))
    if name = [] then none else some name

/-- `_is_safe_plugin_name`; an absolute path has a separator. -/
def isSafePluginName (name : Text) : Bool :=
  !(stripChars name).isEmpty && !name.contains '/' && !name.contains '\\' &&
    !decide ("..".toList <:+: name)

example : repoNameFromUrl "https://github.com/owner/plug.git/".toList = some "plug".toList := by
  decide

example : repoNameFromUrl "git@github.com:owner/plug.git".toList = some "plug".toList := by decide

/-! ## What an entry asks for -/

inductive RefType
  | commit
  | tag
  | branch
  deriving DecidableEq

structure Ref where
  type : RefType
  value : Text
  deriving DecidableEq

/-- `DEFAULT_BRANCHES`. -/
def defaultBranches : List Text := ["main", "master"].map String.toList

/-- A field that is a string or absent; `none` when it is anything else. -/
def textField (info : Py) (key : String) : Option Text :=
  match info.field key with
  | .none => some []
  | .str s => some s.toList
  | _ => none

/-- A commit goes before a tag, a tag before a branch. -/
def selectRef (commit tag branch : Text) : Ref :=
  if commit ≠ [] then ⟨.commit, commit⟩
  else if tag ≠ [] then ⟨.tag, tag⟩
  else if branch ≠ [] then ⟨.branch, branch⟩
  else ⟨.branch, "main".toList⟩

/-- The repository and the reference of an entry that is active and has both in proper form. -/
def request? (info : Py) : Option (Text × Ref) :=
  match info.field "active" with
  | .bool true => do
    let url ← textField info "repository"
    let commit ← textField info "commit"
    let tag ← textField info "tag"
    let branch ← textField info "branch"
    if url = [] then none else some (url, selectRef commit tag branch)
  | _ => none

/-- `ValidationResult` of inputs that are valid. -/
structure Validated where
  repoUrl : Text
  ref : Ref
  repoName : Text
  deriving DecidableEq

def isHexDigit (c : Char) : Bool :=
  c.isDigit || decide ('a' ≤ c ∧ c ≤ 'f') || decide ('A' ≤ c ∧ c ≤ 'F')

/-- `COMMIT_HASH_PATTERN` and `REF_NAME_PATTERN`. -/
def refValueMatches : RefType → Text → Bool
  | .commit, value => value.all isHexDigit && decide (7 ≤ value.length ∧ value.length ≤ 40)
  | _, [] => false
  | _, c :: cs =>
    c.isAlphanum && cs.all fun c => c.isAlphanum || c = '.' || c = '_' || c = '/' || c = '-'

/-- `_validate_clone_inputs`; `allowed` is `_is_repo_url_allowed`. -/
def validateCloneInputs (allowed : Text → Bool) (url : Text) (ref : Ref) : Option Validated :=
  let url := stripChars url
  let value := stripChars ref.value
  if !allowed url || value.isEmpty || startsWith "-" value || !refValueMatches ref.type value then
    none
  else (repoNameFromUrl url).map fun name => ⟨url, ⟨ref.type, value⟩, name⟩

variable {allowed : Text → Bool} {url : Text} {ref : Ref} {v : Validated}

theorem validateCloneInputs_eq_some (h : validateCloneInputs allowed url ref = some v) :
    v.repoUrl = stripChars url ∧ repoNameFromUrl (stripChars url) = some v.repoName := by
  unfold validateCloneInputs at h
  dsimp only at h
  split_ifs at h
  obtain ⟨name, hname, rfl⟩ := Option.map_eq_some_iff.mp h
  exact ⟨rfl, hname⟩

/-- The helper that clones validates once more. -/
theorem validateCloneInputs_validated (h : validateCloneInputs allowed url ref = some v) :
    validateCloneInputs allowed v.repoUrl ref = some v := by
  rw [(validateCloneInputs_eq_some h).1, ← h]
  unfold validateCloneInputs
  rw [stripChars_idem]

/-! ## Directories -/

/-- What a name stands for in a directory of plugins. -/
inductive Dir
  | checkout (origin : Option Text)
  /-- A directory that is no working copy. -/
  | plain
  | file
  /-- A link to a directory that is not below this one. -/
  | outside
  deriving DecidableEq

/-- A directory of plugins. -/
abbrev Content := Text → Option Dir

/-- A directory below the one it is in. -/
def Dir.isBelow : Dir → Bool
  | .checkout _ => true
  | .plain => true
  | .file => false
  | .outside => false

/-- `_is_path_contained(root, os.path.join(root, name))` of a safe name. -/
def isPathContained (content : Content) (name : Text) : Bool :=
  decide (name ≠ ".".toList) && decide (content name ≠ some .outside)

/-! ## git -/

/-- What a clone that failed leaves. -/
inductive Leftover
  | nothing
  | plain
  /-- A working copy that knows its remote already. -/
  | configured
  deriving DecidableEq

def Leftover.dir (url : Text) : Leftover → Option Dir
  | .nothing => none
  | .plain => some .plain
  | .configured => some (.checkout (some url))

/-- Whether the reference is checked out after a clone; `stopped` is a missing git. -/
inductive Reached
  | yes
  | no
  | stopped
  deriving DecidableEq

/-- The outcome of one `git clone`, and of the commands after it. -/
inductive CloneOutcome
  /-- git is missing, or the directory of plugins cannot be made. -/
  | notRun
  | failed (left : Leftover)
  | cloned (reached : Reached)
  deriving DecidableEq

/-- What cloning or updating an entry meets. -/
structure SyncEnv where
  /-- `_is_repo_url_allowed`. -/
  allowed : Text → Bool
  /-- The git commands bring the directory that is there to the reference. -/
  updates : Bool
  /-- The outcome of the `git clone` that names this branch, or none. -/
  clone : Option Text → CloneOutcome

def Ref.isDefaultBranch (ref : Ref) : Bool :=
  decide (ref.type = .branch) && defaultBranches.contains ref.value

/-- The branches that the clone commands name, in order. -/
def cloneCommands (ref : Ref) : List (Option Text) :=
  if ref.isDefaultBranch then
    (ref.value :: defaultBranches.filter (· ≠ ref.value)).map some ++ [none]
  else if ref.type = .branch then [some ref.value, none]
  else [none]

/-- The loop over the clone commands: what is at the path then, and whether it is the reference.
`left` is what the last command left; the next one removes it first. -/
def cloneNewRepo (clone : Option Text → CloneOutcome) (url : Text) (isDefault : Bool) :
    List (Option Text) → Option Dir → Option Dir × Bool
  | [], left => (left, false)
  | branch :: branches, _ =>
    match clone branch with
    | .notRun => (none, false)
    | .failed left => cloneNewRepo clone url isDefault branches (left.dir url)
    | .cloned reached =>
      if isDefault then (some (.checkout (some url)), true)
      else
        match reached with
        | .yes => (some (.checkout (some url)), true)
        | .no => cloneNewRepo clone url isDefault branches (some (.checkout (some url)))
        | .stopped => (some (.checkout (some url)), false)

/-- `_clone_or_update_repo_validated`. -/
def cloneOrUpdateRepoValidated (env : SyncEnv) (v : Validated) (content : Content) :
    Content × Bool :=
  match content v.repoName with
  | some .file => (content, false)
  -- the commands of an update do not change the remote
  | some _ => (content, env.updates)
  | none =>
    let r := cloneNewRepo env.clone v.repoUrl v.ref.isDefaultBranch (cloneCommands v.ref) none
    (Function.update content v.repoName r.1, r.2)

/-- `clone_or_update_repo`. -/
def cloneOrUpdateRepo (env : SyncEnv) (url : Text) (ref : Ref) (content : Content) :
    Content × Bool :=
  match validateCloneInputs env.allowed url ref with
  | none => (content, false)
  | some v => cloneOrUpdateRepoValidated env v content

/-- The body of the loop over the entries: the content then, and whether the plugin is ready. -/
def syncEntry (env : SyncEnv) (content : Content) (info : Py) : Content × Bool :=
  match request? info with
  | none => (content, false)
  | some (url, ref) =>
    match validateCloneInputs env.allowed url ref with
    | none => (content, false)
    | some v =>
      if isSafePluginName v.repoName && isPathContained content v.repoName then
        cloneOrUpdateRepo env v.repoUrl ref content
      else (content, false)

/-! ## What a sync leaves -/

/-- The directory of an entry is a working copy of its repository. -/
def Placed (content : Content) (info : Py) : Prop :=
  ∃ url ref name, request? info = some (url, ref) ∧
    repoNameFromUrl (stripChars url) = some name ∧ name ≠ ".".toList ∧
    content name = some (.checkout (some (stripChars url)))

/-- A directory that git updates for an entry is a working copy of its repository. -/
def UpdatesOwn (env : SyncEnv) (content : Content) (info : Py) : Prop :=
  ∀ r ∈ request? info, ∀ v ∈ validateCloneInputs env.allowed r.1 r.2, ∀ d ∈ content v.repoName,
    d.isBelow = true → env.updates = true → d = .checkout (some v.repoUrl)

instance (env : SyncEnv) (content : Content) (info : Py) :
    Decidable (UpdatesOwn env content info) := by
  unfold UpdatesOwn
  infer_instance

variable {env : SyncEnv} {content : Content} {info : Py}

theorem cloneNewRepo_ok {clone : Option Text → CloneOutcome} {isDefault : Bool}
    {branches : List (Option Text)} {left : Option Dir}
    (h : (cloneNewRepo clone url isDefault branches left).2 = true) :
    (cloneNewRepo clone url isDefault branches left).1 = some (.checkout (some url)) := by
  induction branches generalizing left with
  | nil => cases h
  | cons branch branches ih =>
    unfold cloneNewRepo at h ⊢
    cases hout : clone branch with
    | notRun =>
      rw [hout] at h
      cases h
    | failed l =>
      rw [hout] at h
      exact ih h
    | cloned reached =>
      rw [hout] at h
      cases isDefault with
      | true => rfl
      | false =>
        cases reached with
        | yes => rfl
        | no => exact ih h
        | stopped => cases h

/-- A working copy keeps its remote. -/
theorem cloneOrUpdateRepoValidated_of_checkout {n : Text} {o : Option Text}
    (h : content n = some (.checkout o)) :
    (cloneOrUpdateRepoValidated env v content).1 n = some (.checkout o) := by
  unfold cloneOrUpdateRepoValidated
  split
  · exact h
  · exact h
  · next hnone =>
    have hne : n ≠ v.repoName := by
      intro he
      rw [he, hnone] at h
      cases h
    dsimp only
    rw [Function.update_of_ne hne]
    exact h

theorem syncEntry_eq (content : Content) (hr : request? info = some (url, ref))
    (hv : validateCloneInputs env.allowed url ref = some v) :
    syncEntry env content info =
      if isSafePluginName v.repoName && isPathContained content v.repoName then
        cloneOrUpdateRepoValidated env v content
      else (content, false) := by
  unfold syncEntry cloneOrUpdateRepo
  rw [hr]
  dsimp only
  rw [hv]
  dsimp only
  rw [validateCloneInputs_validated hv]

theorem syncEntry_eq_or (env : SyncEnv) (content : Content) (info : Py) :
    syncEntry env content info = (content, false) ∨
      ∃ url ref v, request? info = some (url, ref) ∧
        validateCloneInputs env.allowed url ref = some v ∧
        isPathContained content v.repoName = true ∧
        syncEntry env content info = cloneOrUpdateRepoValidated env v content := by
  cases hr : request? info with
  | none =>
    left
    unfold syncEntry
    rw [hr]
  | some r =>
    obtain ⟨url, ref⟩ := r
    cases hv : validateCloneInputs env.allowed url ref with
    | none =>
      left
      unfold syncEntry
      rw [hr]
      dsimp only
      rw [hv]
    | some v =>
      have heq := syncEntry_eq content hr hv
      split_ifs at heq with hsafe
      · rw [Bool.and_eq_true] at hsafe
        exact Or.inr ⟨url, ref, v, rfl, hv, hsafe.2, heq⟩
      · exact Or.inl heq

theorem syncEntry_of_checkout {n : Text} {o : Option Text} (h : content n = some (.checkout o)) :
    (syncEntry env content info).1 n = some (.checkout o) := by
  obtain heq | ⟨url, ref, v, -, -, -, heq⟩ := syncEntry_eq_or env content info
  · rw [heq]
    exact h
  · rw [heq]
    exact cloneOrUpdateRepoValidated_of_checkout h

theorem placed_of_syncEntry (h : Placed content info) (env : SyncEnv) (info' : Py) :
    Placed (syncEntry env content info').1 info := by
  obtain ⟨url, ref, name, hr, hname, hdot, hdir⟩ := h
  exact ⟨url, ref, name, hr, hname, hdot, syncEntry_of_checkout hdir⟩

/-- A directory that is there is not replaced. -/
theorem cloneOrUpdateRepoValidated_of_isBelow {d : Dir} (hdir : content v.repoName = some d)
    (hd : d.isBelow = true) :
    cloneOrUpdateRepoValidated env v content = (content, env.updates) := by
  unfold cloneOrUpdateRepoValidated
  rw [hdir]
  cases d with
  | file => cases hd
  | outside => cases hd
  | plain => rfl
  | checkout o => rfl

/-- **What is ready is placed**, exactly if no directory of another repository was updated. -/
theorem placed_of_sync_iff (h : (syncEntry env content info).2 = true) :
    Placed (syncEntry env content info).1 info ↔ UpdatesOwn env content info := by
  obtain heq | ⟨url, ref, v, hr, hv, hcont, heq⟩ := syncEntry_eq_or env content info
  · rw [heq] at h
    cases h
  obtain ⟨hurl, hname⟩ := validateCloneInputs_eq_some hv
  rw [heq] at h ⊢
  constructor
  · rintro ⟨url', ref', name, hr', hname', -, hplaced⟩ r hr'' v' hv' d hdir hd hup
    -- the entry, its inputs and its name are determined
    obtain ⟨rfl, rfl⟩ := Prod.mk.inj (Option.some.inj (hr.symm.trans hr'))
    obtain rfl : (url, ref) = r := Option.some.inj (hr.symm.trans hr'')
    obtain rfl : v = v' := Option.some.inj (hv.symm.trans hv')
    obtain rfl : v.repoName = name := Option.some.inj (hname.symm.trans hname')
    rw [cloneOrUpdateRepoValidated_of_isBelow hdir hd] at hplaced
    dsimp only at hplaced
    rw [hdir] at hplaced
    rw [hurl]
    exact Option.some.inj hplaced
  · intro hown
    unfold isPathContained at hcont
    rw [Bool.and_eq_true, decide_eq_true_eq, decide_eq_true_eq] at hcont
    refine ⟨url, ref, v.repoName, hr, hname, hcont.1, ?_⟩
    rw [← hurl]
    cases hdir : content v.repoName with
    | none =>
      unfold cloneOrUpdateRepoValidated at h ⊢
      rw [hdir] at h ⊢
      dsimp only at h ⊢
      rw [Function.update_self]
      exact cloneNewRepo_ok h
    | some d =>
      have hd : d.isBelow = true := by
        cases d with
        | file =>
          unfold cloneOrUpdateRepoValidated at h
          rw [hdir] at h
          cases h
        | outside => exact absurd hdir hcont.2
        | plain => rfl
        | checkout o => rfl
      rw [cloneOrUpdateRepoValidated_of_isBelow hdir hd] at h ⊢
      dsimp only at h ⊢
      rw [hdir, hown (url, ref) hr v hv d hdir hd h]

end MMRelay.Loader
