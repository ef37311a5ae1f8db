import MMRelay.Lib.Ensures
import MMRelay.Lib.Shlex
import MMRelay.Loader.Repository

/-!
# The commit that a community plugin is pinned to

The git commands of `clone_or_update_repo` (`plugin_loader.py`) with all their fallbacks, and the
loop of `load_plugins` over the entries of the configuration, for any behaviour of git.

* `Cmd`, `Fault`, `Host`: the commands, how they fail, and what they do to a directory;
* `updateExistingRepoToCommit`, `cloneNewRepoToCommit`, `updateExistingRepoToBranchOrTag`,
  `cloneNewRepoToBranchOrTag`, `checkCommitPin`, `syncEntries`: the code;
* `View`, `Faithful`: what is relied on of git;
* `commitCommands`, `PinCommand`: the commands that a pinned commit can lead to;
* `ensures_checkoutCommit`: what the code reports as checked out is;
* `throughout_checkCommitPin`: the check for upstream updates keeps it;
* **`pins_hold`**: after the loop every entry that is ready and pinned to a commit has it checked
  out, and no command on its directory named anything else but in queries of the remote;
* `tag_cloned`: a tag that is cloned is checked out as well;
* `twoCommits`, `tag_falls_back`: an update of a tag that is gone is not.
-/

namespace MMRelay.Loader.Pin

/-! ## git -/

/-- The git commands: `clone` runs in the directory of plugins, the others in the plugin's own. -/
inductive Cmd
  | clone (branch : Option Text) (url : Text)
  | revParse (rev : Text)
  | fetch (args : List Text)
  | checkout (args : List Text)
  | pull (ref : Text)
  | lsRemote (args : List Text)
  deriving DecidableEq

/-- The exceptions of a command. -/
inductive Fault
  /-- `CalledProcessError`. -/
  | failed
  /-- `TimeoutExpired`. -/
  | timedOut
  /-- `FileNotFoundError`: there is no git. -/
  | missing
  /-- Another `OSError`. -/
  | os
  | other
  deriving DecidableEq

/-- `except (CalledProcessError, TimeoutExpired)`. -/
def Fault.isGit : Fault → Bool
  | .failed | .timedOut => true
  | .missing | .os | .other => false

/-- The same with `FileNotFoundError`. -/
def Fault.isGitOrMissing (e : Fault) : Bool := e.isGit || decide (e = .missing)

/-- `except (CalledProcessError, TimeoutExpired, OSError)`. -/
def Fault.isGitOrOs (e : Fault) : Bool := decide (e ≠ .other)

/-- What `_check_commit_pin_for_upstream_updates` has found. -/
structure PinCheck where
  pinnedSha : Option Text
  defaultBranch : Option Text
  upstreamSha : Option Text

/-- What git and the file system do to the directory of a plugin, which is in a state of `σ`. -/
structure Host (σ : Type) where
  /-- One run of a command: its output or exception, and what it leaves. -/
  git : Cmd → σ → Except Fault Text × σ
  isDir : σ → Bool
  /-- `_is_path_contained` in the directory of plugins. -/
  contained : σ → Bool
  /-- `os.makedirs` of the directory of plugins; whether it is there then. -/
  makedirs : σ → Bool × σ
  /-- `shutil.rmtree` with `ignore_errors`. -/
  rmtree : σ → σ
  /-- By the state file of the plugin, upstream has not been checked for a while. -/
  pinCheckDue : σ → Bool
  /-- What a check leaves in the state file. -/
  savePinCheck : PinCheck → σ → σ
  /-- The installation of the requirements at a commit, with what it leaves in the state file. -/
  installRequirements : Text → σ → Except Fault Unit × σ

/-- A program that runs commands on a directory; its notes are the commands, in order. -/
abbrev GitProg (σ α : Type) := Prog σ Cmd Fault α

variable {σ : Type}

namespace Host

variable (host : Host σ)

/-- One attempt. -/
def attemptGit (cmd : Cmd) : GitProg σ Text := fun s =>
  ⟨(host.git cmd s).1, (host.git cmd s).2, [cmd]⟩

/-- `_run_git`; a command that fails is run again, `retries` times at most. -/
def runGit (cmd : Cmd) : ℕ → GitProg σ Text
  | 0 => host.attemptGit cmd
  | retries + 1 => Prog.catching Fault.isGit (host.attemptGit cmd) (runGit cmd retries)

/-- A command whose output is not needed; `retries` is `GIT_RETRY_ATTEMPTS - 1` or none. -/
def git? (cmd : Cmd) (retries : ℕ) : GitProg σ Bool := do
  let _ ← host.runGit cmd retries
  pure true

end Host

def head : Text := "HEAD".toList

def origin : Text := "origin".toList

/-- `ref_value` with `GIT_COMMIT_DEREF_SUFFIX`. -/
def derefCommit (ref : Text) : Text := ref ++ "^{commit}".toList

variable (host : Host σ) (ref : Text)

/-- The reference and HEAD are the same commit. -/
def alreadyAt : GitProg σ Bool := do
  let current ← host.runGit (.revParse head) 0
  let target ← host.runGit (.revParse (derefCommit ref)) 0
  pure (stripChars current == stripChars target)

/-! ## Commits -/

/-- `_fetch_commit_with_fallback`. -/
def fetchCommitWithFallback : GitProg σ Bool :=
  Prog.catching Fault.isGit (host.git? (.fetch ["--depth=1".toList, origin, ref]) 2)
    (Prog.catching Fault.isGit (host.git? (.fetch [origin]) 2) (pure false))

/-- What an update to a commit and a clone at a commit have in common. -/
def checkoutCommit : GitProg σ Bool := do
  let there ← Prog.catching Fault.isGit (alreadyAt host ref) (pure false)
  if there then pure true
  else do
    let direct ← Prog.catching Fault.isGit (host.git? (.checkout [ref]) 0) (pure false)
    if direct then pure true
    else do
      let fetched ← fetchCommitWithFallback host ref
      if fetched then host.git? (.checkout [ref]) 0 else pure false

/-- `_update_existing_repo_to_commit`. -/
def updateExistingRepoToCommit : GitProg σ Bool :=
  Prog.catching Fault.isGitOrMissing (checkoutCommit host ref) (pure false)

/-- `os.makedirs(plugins_dir, exist_ok=True)`. -/
def makedirs : GitProg σ Bool := fun s => ⟨.ok (host.makedirs s).1, (host.makedirs s).2, []⟩

/-- `_clone_new_repo_to_commit`. -/
def cloneNewRepoToCommit (url : Text) : GitProg σ Bool := do
  let made ← makedirs host
  if made then
    Prog.catching Fault.isGitOrMissing
      (do
        let _ ← host.runGit (.clone none url) 0
        checkoutCommit host ref)
      (pure false)
  else pure false

/-! ## Branches and tags -/

/-- `_try_checkout_and_pull_ref`. -/
def tryCheckoutAndPullRef (type : RefType) : GitProg σ Bool :=
  Prog.catching (· = .missing)
    (Prog.catching Fault.isGit
      (do
        let _ ← host.runGit (.checkout [ref]) 0
        host.git? (.pull ref) 0)
      (if type = .branch then
        Prog.catching Fault.isGitOrMissing
          (do
            let _ ← host.runGit (.fetch [origin, ref]) 2
            host.git? (.checkout ["-B".toList, ref, origin ++ '/' :: ref]) 0)
          (pure false)
      else pure false))
    (pure false)

def tagRef : Text := "refs/tags/".toList ++ ref

/-- `_try_fetch_and_checkout_tag`. -/
def tryFetchAndCheckoutTag : GitProg σ Bool :=
  Prog.catching Fault.isGitOrMissing
    (do
      let _ ← Prog.catching Fault.isGit (host.git? (.fetch [origin, tagRef ref]) 2)
        (Prog.catching Fault.isGit (host.git? (.fetch ["--tags".toList]) 2)
          (host.git? (.fetch [origin, tagRef ref ++ ':' :: tagRef ref]) 2))
      host.git? (.checkout [ref]) 0)
    (pure false)

/-- `_try_checkout_as_branch`. -/
def tryCheckoutAsBranch : GitProg σ Bool :=
  Prog.catching Fault.isGitOrMissing
    (do
      let _ ← host.runGit (.fetch [origin, ref]) 2
      let _ ← host.runGit (.checkout [ref]) 0
      host.git? (.pull ref) 0)
    (pure false)

/-- `_fallback_to_default_branches`. -/
def fallbackToDefaultBranches : List Text → GitProg σ Bool
  | [] => pure false
  | branch :: branches =>
    Prog.catching Fault.isGit
      (do
        let _ ← host.runGit (.checkout [branch]) 0
        host.git? (.pull branch) 0)
      (fallbackToDefaultBranches branches)

/-- The loop over the default branches of an update. -/
def tryDefaultBranches : List Text → GitProg σ Bool
  | [] => pure false
  | branch :: branches => do
    let done ← tryCheckoutAndPullRef host branch .branch
    if done then pure true else tryDefaultBranches branches

/-- The branches that are tried for a default branch: itself, then the others. -/
def defaultBranchCandidates : List Text := ref :: defaultBranches.filter (· ≠ ref)

/-- `_update_existing_repo_to_branch_or_tag`. -/
def updateExistingRepoToBranchOrTag (ref : Ref) : GitProg σ Bool := do
  -- an update goes on without the fetch, but not without git
  let hasGit ← Prog.catching (· = .missing)
    (Prog.catching Fault.isGit (host.git? (.fetch [origin]) 2) (pure true)) (pure false)
  if hasGit then
    if ref.isDefaultBranch then tryDefaultBranches host (defaultBranchCandidates ref.value)
    else if ref.type = .branch then tryCheckoutAndPullRef host ref.value .branch
    else do
      let there ← Prog.catching Fault.isGitOrMissing (alreadyAt host ref.value) (pure false)
      if there then pure true
      else do
        let tagged ← tryFetchAndCheckoutTag host ref.value
        if tagged then pure true
        else do
          let branched ← tryCheckoutAsBranch host ref.value
          if branched then pure true else fallbackToDefaultBranches host defaultBranches
  else pure false

/-- What follows a clone: whether the reference is reached. -/
def afterClone (ref : Ref) : GitProg σ Bool :=
  match ref.type with
  | .tag => do
    let there ← Prog.catching Fault.isGit (alreadyAt host ref.value) (pure false)
    if there then pure true else tryFetchAndCheckoutTag host ref.value
  | _ => if ref.isDefaultBranch then pure true else tryCheckoutAsBranch host ref.value

/-- `if os.path.isdir(repo_path): shutil.rmtree(repo_path, ignore_errors=True)`. -/
def removeDir : GitProg σ Unit := fun s =>
  ⟨.ok (), if host.isDir s then host.rmtree s else s, []⟩

/-- `_clone_new_repo_to_branch_or_tag`: the loop over the clone commands. -/
def cloneNewRepoToBranchOrTag (url : Text) (ref : Ref) : List (Option Text) → GitProg σ Bool
  | [] => pure false
  | branch :: branches => do
    let r ← Prog.attempt do
      removeDir host
      let _ ← host.runGit (.clone branch url) 0
      afterClone host ref
    match r with
    | .ok true => pure true
    | .ok false => cloneNewRepoToBranchOrTag url ref branches
    | .error e =>
      if e.isGit then cloneNewRepoToBranchOrTag url ref branches
      else if e = .missing then pure false
      else Prog.raise e

/-! ## An entry and the loop -/

/-- `_is_full_commit_sha`. -/
def isFullCommitSha (value : Text) : Bool :=
  (stripChars value).all isHexDigit && decide ((stripChars value).length = 40)

/-- A text that is a full hash. -/
def fullSha? (value : Text) : Option Text :=
  if isFullCommitSha (stripChars value) then some (stripChars value) else none

/-- `_resolve_local_head_commit`. -/
def resolveLocalHeadCommit : GitProg σ (Option Text) :=
  Prog.catching Fault.isGitOrOs
    (do
      let out ← host.runGit (.revParse head) 0
      pure (fullSha? out))
    (pure none)

def headsPrefix : Text := "refs/heads/".toList

/-- The hash before the first tab of the first line that is not empty. -/
def firstSha (out : Text) : Option Text :=
  ((splitLinesAux out []).find? (!·.isEmpty)).bind fun line =>
    fullSha? ((stripChars line).takeWhile (· ≠ '\t'))

/-- `_resolve_remote_branch_head_commit`. -/
def resolveRemoteBranchHeadCommit (branch : Text) : GitProg σ (Option Text) :=
  Prog.catching Fault.isGitOrOs
    (do
      let out ← host.runGit (.lsRemote [origin, headsPrefix ++ branch]) 0
      pure (firstSha out))
    (pure none)

/-- The branch that a line `ref: refs/heads/…` names. -/
def symrefBranch (line : Text) : Option Text :=
  if startsWith "ref:" (stripChars line) then
    ((words (stripChars line))[1]?).bind fun ref =>
      if headsPrefix.isPrefixOf ref then some (ref.drop headsPrefix.length) else none
  else none

/-- The loop over the default branches of `_resolve_remote_default_branch`. -/
def firstRemoteBranch : List Text → GitProg σ (Option Text)
  | [] => pure none
  | branch :: branches => do
    let sha ← resolveRemoteBranchHeadCommit host branch
    if sha.isSome then pure (some branch) else firstRemoteBranch branches

/-- `_resolve_remote_default_branch`. -/
def resolveRemoteDefaultBranch : GitProg σ (Option Text) := do
  let out ← Prog.catching Fault.isGitOrOs
    (host.runGit (.lsRemote ["--symref".toList, origin, head]) 0) (pure [])
  match (splitLinesAux out []).findSome? symrefBranch with
  | some branch => pure (some branch)
  | none => firstRemoteBranch host defaultBranches

def pinCheckDue : GitProg σ Bool := fun s => ⟨.ok (host.pinCheckDue s), s, []⟩

def savePinCheck (found : PinCheck) : GitProg σ Unit := fun s =>
  ⟨.ok (), host.savePinCheck found s, []⟩

/-- The head of the default branch; the name of a branch may be empty. -/
def upstreamSha (branch : Option Text) : GitProg σ (Option Text) :=
  match branch with
  | some (c :: cs) => resolveRemoteBranchHeadCommit host (c :: cs)
  | _ => pure none

/-- `_check_commit_pin_for_upstream_updates`. -/
def checkCommitPin : GitProg σ Unit :=
  Prog.catching (fun _ => true)
    (do
      let due ← pinCheckDue host
      if due then do
        let pinned ← resolveLocalHeadCommit host
        let branch ← resolveRemoteDefaultBranch host
        let upstream ← upstreamSha host branch
        savePinCheck host ⟨pinned, branch, upstream⟩
      else pure ())
    (pure ())

def installRequirements (sha : Text) : GitProg σ Unit := fun s =>
  ⟨(host.installRequirements sha s).1, (host.installRequirements sha s).2, []⟩

/-- The entry wants its requirements installed, and names a reference for it; a commit in full. -/
def wantsRequirements (info : Py) (ref : Ref) : Bool :=
  (match info.field "install_requirements" with
    | .bool b => b
    | _ => false) &&
  ((info.field "commit").truthy || (info.field "tag").truthy || (info.field "branch").truthy) &&
    (decide (ref.type ≠ .commit) || isFullCommitSha ref.value)

/-- What the loop of `load_plugins` does for the requirements of an entry. -/
def prepareRequirements (info : Py) (ref : Ref) : GitProg σ Unit :=
  if wantsRequirements info ref then do
    let pinned ← resolveLocalHeadCommit host
    match pinned with
    | none => pure ()
    | some sha => installRequirements host sha
  else pure ()

def isDir : GitProg σ Bool := fun s => ⟨.ok (host.isDir s), s, []⟩

/-- `_clone_or_update_repo_validated`. -/
def cloneOrUpdateRepoValidated (v : Validated) : GitProg σ Bool :=
  Prog.catching Fault.isGitOrMissing
    (do
      let there ← isDir host
      if there then
        if v.ref.type = .commit then updateExistingRepoToCommit host v.ref.value
        else updateExistingRepoToBranchOrTag host v.ref
      else if v.ref.type = .commit then cloneNewRepoToCommit host v.ref.value v.repoUrl
      else cloneNewRepoToBranchOrTag host v.repoUrl v.ref (cloneCommands v.ref))
    (pure false)

/-- `clone_or_update_repo`. -/
def cloneOrUpdateRepo (allowed : Text → Bool) (url : Text) (ref : Ref) : GitProg σ Bool :=
  match validateCloneInputs allowed url ref with
  | none => pure false
  | some v => cloneOrUpdateRepoValidated host v

/-- What an entry asks for, once it is validated. -/
def validated? (allowed : Text → Bool) (info : Py) : Option (Validated × Ref) := do
  let (url, ref) ← request? info
  let v ← validateCloneInputs allowed url ref
  if isSafePluginName v.repoName then some (v, ref) else none

def contained : GitProg σ Bool := fun s => ⟨.ok (host.contained s), s, []⟩

/-- `if ref["type"] == "commit"`. -/
def checkIfPinned (ref : Ref) : GitProg σ Unit :=
  if ref.type = .commit then checkCommitPin host else pure ()

/-- What follows `clone_or_update_repo` when it succeeds. -/
def afterSync (info : Py) (ref : Ref) : GitProg σ Unit := do
  checkIfPinned host ref
  prepareRequirements host info ref

/-- The body of the loop of `load_plugins` over the entries: whether the entry is ready. There is a
directory of plugins, and every plugin has its own state in it. -/
def syncEntry (allowed : Text → Bool) (info : Py) : Prog (Text → σ) (Text × Cmd) Fault Bool :=
  match validated? allowed info with
  | none => pure false
  | some (v, ref) =>
    Prog.within v.repoName do
      let inside ← contained host
      if inside then do
        let synced ← cloneOrUpdateRepo host allowed v.repoUrl ref
        if synced then do
          afterSync host info ref
          pure true
        else pure false
      else pure false

/-- The loop of `load_plugins` over the entries. -/
def syncEntries (allowed : Text → Bool) (entries : List Py) :
    Prog (Text → σ) (Text × Cmd) Fault (List Bool) :=
  Prog.collect entries (syncEntry host allowed)

/-! ## What is relied on of git -/

/-- What a working copy is at. -/
structure View (σ : Type) where
  head : σ → Option Text
  /-- The commit that a revision names. -/
  resolve : Text → σ → Option Text
  /-- A branch or a file of the working copy has this name, and `checkout` may take it for that. -/
  clashes : Text → σ → Prop
  /-- The hash is that of a tag, which stands for the commit it is put on. -/
  tagObject : Text → σ → Prop

/-- The commit that the revision names is checked out, unless the name is ambiguous. -/
def View.IsAt (view : View σ) (ref : Text) (s : σ) : Prop :=
  ¬ view.clashes ref s → ∃ commit, view.head s = some commit ∧ view.resolve ref s = some commit

/-- What is checked out, and what names there are, is the same; there may be more files. -/
structure View.Kept (view : View σ) (s t : σ) : Prop where
  head : view.head t = view.head s
  resolve : ∀ ref, view.resolve ref t = view.resolve ref s
  clashes : ∀ ref, view.clashes ref s → view.clashes ref t

/-- `git rev-parse` leaves HEAD and prints a commit, which a partial clone may fetch for that;
`git checkout` checks out what it is told to, when it succeeds. `git rev-parse HEAD`, `git ls-remote`,
the state file and the installation of requirements leave what is checked out. -/
structure Faithful (view : View σ) : Prop where
  revParse_keeps : ∀ s, view.Kept s (host.git (.revParse head) s).2
  revParse_head : ∀ out s, (host.git (.revParse head) s).1 = .ok out →
    view.head s = some (stripChars out)
  revParse_commit : ∀ ref out s, (host.git (.revParse (derefCommit ref)) s).1 = .ok out →
    view.head (host.git (.revParse (derefCommit ref)) s).2 = view.head s ∧
      view.resolve ref (host.git (.revParse (derefCommit ref)) s).2 = some (stripChars out)
  checkout : ∀ ref out s, (host.git (.checkout [ref]) s).1 = .ok out →
    view.IsAt ref (host.git (.checkout [ref]) s).2
  /-- A full hash that is not that of a tag only names its own commit. -/
  full : ∀ ref commit s, isFullCommitSha ref = true → view.resolve ref s = some commit →
    ¬ view.tagObject ref s → commit = ref.map Char.toLower
  lsRemote_keeps : ∀ args s, view.Kept s (host.git (.lsRemote args) s).2
  savePinCheck_keeps : ∀ found s, view.Kept s (host.savePinCheck found s)
  install_keeps : ∀ sha s, view.Kept s (host.installRequirements sha s).2

/-- The commands that check out a commit: none names anything else, and `fetch origin` moves no
branch of the working copy. -/
def commitCommands (ref : Text) : List Cmd :=
  [.revParse head, .revParse (derefCommit ref), .checkout [ref],
    .fetch ["--depth=1".toList, origin, ref], .fetch [origin]]

/-- The commands that a pinned commit can lead to: those, a clone without a branch, and queries of
the remote. -/
def PinCommand (v : Validated) (cmd : Cmd) : Prop :=
  cmd ∈ .clone none v.repoUrl :: commitCommands v.ref.value ∨ ∃ args, cmd = .lsRemote args

/-! ## Commands -/

variable {host ref} {N : Cmd → Prop} {X : σ → Prop} {Y : Text → σ → Prop} {cmd : Cmd} {retries : ℕ}

theorem ensures_attemptGit (hcmd : N cmd)
    (h : ∀ s out, X s → (host.git cmd s).1 = .ok out → Y out (host.git cmd s).2) :
    Ensures N X (host.attemptGit cmd) Y :=
  fun s hs => ⟨fun _ hn => List.mem_singleton.mp hn ▸ hcmd, fun out hout => h s out hs hout⟩

theorem ensures_runGit (hcmd : N cmd)
    (h : ∀ s out, (host.git cmd s).1 = .ok out → Y out (host.git cmd s).2) :
    Ensures N X (host.runGit cmd retries) Y := by
  have hattempt : Ensures N (fun _ => True) (host.attemptGit cmd) Y :=
    ensures_attemptGit hcmd fun s out _ hout => h s out hout
  have hretried : Ensures N (fun _ => True) (host.runGit cmd retries) Y := by
    induction retries with
    | zero => exact hattempt
    | succ retries ih => exact hattempt.catching ih
  exact hretried.pre fun _ _ => trivial

theorem ensures_any (hcmd : N cmd) :
    Ensures N X (host.runGit cmd retries) fun _ _ => True :=
  ensures_runGit hcmd fun _ _ _ => trivial

theorem ensures_git? {Q : Bool → σ → Prop} (hcmd : N cmd)
    (h : ∀ s out, (host.git cmd s).1 = .ok out → Q true (host.git cmd s).2) :
    Ensures N X (host.git? cmd retries) Q :=
  (ensures_runGit (Y := fun _ => Q true) hcmd h).bind fun _ => Ensures.pure fun _ hs => hs

theorem ensures_no {Q : Bool → σ → Prop} (h : ∀ s, Q false s) :
    Ensures N X (pure false : GitProg σ Bool) Q :=
  Ensures.pure fun s _ => h s

variable {view : View σ}

/-- The answer yes is only given at the reference. -/
def AtRef (view : View σ) (ref : Text) (b : Bool) (s : σ) : Prop := b = true → view.IsAt ref s

theorem atRef_false (s : σ) : AtRef view ref false s := fun h => absurd h Bool.false_ne_true

theorem ensures_checkout (hgit : Faithful host view) (hcmd : N (.checkout [ref])) :
    Ensures N X (host.git? (.checkout [ref]) retries) (AtRef view ref) :=
  ensures_git? hcmd fun s out hout _ => hgit.checkout ref out s hout

theorem ensures_alreadyAt (hgit : Faithful host view) (hhead : N (.revParse head))
    (htarget : N (.revParse (derefCommit ref))) :
    Ensures N X (alreadyAt host ref) (AtRef view ref) := by
  unfold alreadyAt
  refine Ensures.bind (R := fun current s => view.head s = some (stripChars current)) ?_
    fun current => ?_
  · refine ensures_runGit hhead fun s out hout => ?_
    rw [(hgit.revParse_keeps s).head]
    exact hgit.revParse_head out s hout
  · refine Ensures.bind (R := fun target s => view.head s = some (stripChars current) ∧
      view.resolve ref s = some (stripChars target)) ?_ fun target => ?_
    · refine ensures_attemptGit htarget fun s out hs hout => ?_
      obtain ⟨hsame, hresolve⟩ := hgit.revParse_commit ref out s hout
      exact ⟨hsame.trans hs, hresolve⟩
    · refine Ensures.pure fun s hs heq _ => ⟨stripChars current, hs.1, ?_⟩
      rw [beq_iff_eq] at heq
      rw [heq]
      exact hs.2

/-! ## Commits -/

theorem ensures_fetchCommit (hN : ∀ cmd ∈ commitCommands ref, N cmd) :
    Ensures N X (fetchCommitWithFallback host ref) fun _ _ => True := by
  refine Ensures.catching (ensures_git? (hN _ ?_) fun _ _ _ => trivial)
    (Ensures.catching (ensures_git? (hN _ ?_) fun _ _ _ => trivial) (ensures_no fun _ => trivial))
  · simp [commitCommands]
  · simp [commitCommands]

/-- **A commit is checked out whenever the code says so**: it was there already, or a checkout of
it succeeded, at once or after a fetch. -/
theorem ensures_checkoutCommit (hgit : Faithful host view)
    (hN : ∀ cmd ∈ commitCommands ref, N cmd) :
    Ensures N X (checkoutCommit host ref) (AtRef view ref) := by
  have hcheckout : N (.checkout [ref]) := hN _ (by simp [commitCommands])
  have halready : Ensures N X (alreadyAt host ref) (AtRef view ref) :=
    ensures_alreadyAt hgit (hN _ (by simp [commitCommands])) (hN _ (by simp [commitCommands]))
  refine (halready.catching (ensures_no atRef_false)).bind fun there => Ensures.ite ?_ ?_
  · rintro rfl
    exact Ensures.pure fun _ hs => hs
  · rintro -
    have hdirect : Ensures N (AtRef view ref there) (host.git? (.checkout [ref]) 0)
        (AtRef view ref) := ensures_checkout hgit hcheckout
    refine (hdirect.catching (ensures_no atRef_false)).bind fun direct => Ensures.ite ?_ ?_
    · rintro rfl
      exact Ensures.pure fun _ hs => hs
    · rintro -
      refine (ensures_fetchCommit hN).bind fun fetched => Ensures.ite ?_ ?_
      · exact fun _ => ensures_checkout hgit hcheckout
      · exact fun _ => ensures_no atRef_false

theorem ensures_updateToCommit (hgit : Faithful host view)
    (hN : ∀ cmd ∈ commitCommands ref, N cmd) :
    Ensures N X (updateExistingRepoToCommit host ref) (AtRef view ref) :=
  (ensures_checkoutCommit hgit hN).catching (ensures_no atRef_false)

theorem ensures_makedirs : Ensures N X (makedirs host) fun _ _ => True :=
  fun _ _ => ⟨fun _ hn => absurd hn List.not_mem_nil, fun _ _ => trivial⟩

theorem ensures_cloneAtCommit {url : Text} (hgit : Faithful host view)
    (hclone : N (.clone none url)) (hN : ∀ cmd ∈ commitCommands ref, N cmd) :
    Ensures N X (cloneNewRepoToCommit host ref url) (AtRef view ref) := by
  refine ensures_makedirs.bind fun made => Ensures.ite (fun _ => ?_) fun _ => ensures_no atRef_false
  refine Ensures.catching ?_ (ensures_no atRef_false)
  exact (ensures_any hclone).bind fun _ => ensures_checkoutCommit hgit hN

/-! ## After the update -/

theorem View.IsAt.kept {s t : σ} (h : view.IsAt ref s) (hk : view.Kept s t) : view.IsAt ref t := by
  intro hclash
  rw [hk.head, hk.resolve]
  exact h fun hold => hclash (hk.clashes ref hold)

section After

variable (hgit : Faithful host view) {v : Validated}

/-- What is checked out stays, whatever a command that keeps it returns. -/
theorem throughout_git (hcmd : PinCommand v cmd) (hkept : ∀ s, view.Kept s (host.git cmd s).2) :
    Throughout (PinCommand v) (view.IsAt ref) (host.runGit cmd retries) := by
  have hattempt : Throughout (PinCommand v) (view.IsAt ref) (host.attemptGit cmd) := fun s hs =>
    ⟨fun _ hn => List.mem_singleton.mp hn ▸ hcmd, hs.kept (hkept s)⟩
  induction retries with
  | zero => exact hattempt
  | succ retries ih => exact hattempt.catching ih

include hgit

theorem throughout_localHead :
    Throughout (PinCommand v) (view.IsAt ref) (resolveLocalHeadCommit host) := by
  refine Throughout.catching ((throughout_git (Or.inl ?_) hgit.revParse_keeps).bind
    fun _ => Throughout.pure) Throughout.pure
  simp [commitCommands]

theorem throughout_lsRemote {args : List Text} :
    Throughout (PinCommand v) (view.IsAt ref) (host.runGit (.lsRemote args) 0) :=
  throughout_git (Or.inr ⟨args, rfl⟩) (hgit.lsRemote_keeps args)

theorem throughout_remoteHead (branch : Text) :
    Throughout (PinCommand v) (view.IsAt ref) (resolveRemoteBranchHeadCommit host branch) :=
  Throughout.catching ((throughout_lsRemote hgit).bind fun _ => Throughout.pure) Throughout.pure

theorem throughout_defaultBranch :
    Throughout (PinCommand v) (view.IsAt ref) (resolveRemoteDefaultBranch host) := by
  have hloop (branches : List Text) :
      Throughout (PinCommand v) (view.IsAt ref) (firstRemoteBranch host branches) := by
    induction branches with
    | nil => exact Throughout.pure
    | cons branch branches ih =>
      exact (throughout_remoteHead hgit branch).bind fun _ =>
        Throughout.ite (fun _ => Throughout.pure) fun _ => ih
  refine ((throughout_lsRemote hgit).catching Throughout.pure).bind fun out => ?_
  split
  · exact Throughout.pure
  · exact hloop defaultBranches

/-- **The check for upstream updates** keeps what is checked out, and only asks the remote. -/
theorem throughout_checkCommitPin :
    Throughout (PinCommand v) (view.IsAt ref) (checkCommitPin host) := by
  have hdue : Throughout (PinCommand v) (view.IsAt ref) (pinCheckDue host) :=
    fun _ hs => ⟨fun _ hn => absurd hn List.not_mem_nil, hs⟩
  have hsave (found : PinCheck) :
      Throughout (PinCommand v) (view.IsAt ref) (savePinCheck host found) :=
    fun s hs => ⟨fun _ hn => absurd hn List.not_mem_nil, hs.kept (hgit.savePinCheck_keeps found s)⟩
  refine Throughout.catching (hdue.bind fun due => Throughout.ite (fun _ => ?_)
    fun _ => Throughout.pure) Throughout.pure
  refine (throughout_localHead hgit).bind fun pinned => ?_
  refine (throughout_defaultBranch hgit).bind fun branch => ?_
  refine Throughout.bind ?_ fun upstream => hsave _
  unfold upstreamSha
  split
  · exact throughout_remoteHead hgit _
  · exact Throughout.pure

theorem throughout_afterSync (v : Validated) (info : Py) (r : Ref) :
    Throughout (PinCommand v) (view.IsAt ref) (afterSync host info r) := by
  have hinstall (sha : Text) :
      Throughout (PinCommand v) (view.IsAt ref) (installRequirements host sha) :=
    fun s hs => ⟨fun _ hn => absurd hn List.not_mem_nil, hs.kept (hgit.install_keeps sha s)⟩
  have hrequirements : Throughout (PinCommand v) (view.IsAt ref) (prepareRequirements host info r) := by
    unfold prepareRequirements
    refine Throughout.ite (fun _ => ?_) fun _ => Throughout.pure
    refine (throughout_localHead hgit).bind fun pinned => ?_
    cases pinned with
    | none => exact Throughout.pure
    | some sha => exact hinstall sha
  refine Throughout.bind (x := checkIfPinned host r) ?_ fun _ => hrequirements
  unfold checkIfPinned
  split
  · exact throughout_checkCommitPin hgit
  · exact Throughout.pure

end After

/-! ## An entry -/

theorem ensures_isDir : Ensures N X (isDir host) fun _ _ => True :=
  fun _ _ => ⟨fun _ hn => absurd hn List.not_mem_nil, fun _ _ => trivial⟩

theorem ensures_contained : Ensures N X (contained host) fun _ _ => True :=
  fun _ _ => ⟨fun _ hn => absurd hn List.not_mem_nil, fun _ _ => trivial⟩

variable {v : Validated}

theorem ensures_validated (hgit : Faithful host view) (hcommit : v.ref.type = .commit) :
    Ensures (PinCommand v) X (cloneOrUpdateRepoValidated host v) (AtRef view v.ref.value) := by
  have hN : ∀ cmd ∈ commitCommands v.ref.value, PinCommand v cmd := fun _ hcmd =>
    Or.inl (List.mem_cons_of_mem _ hcmd)
  unfold cloneOrUpdateRepoValidated
  refine Ensures.catching ?_ (ensures_no atRef_false)
  refine ensures_isDir.bind fun there => Ensures.ite (fun _ => ?_) fun _ => ?_
  · rw [if_pos hcommit]
    exact ensures_updateToCommit hgit hN
  · rw [if_pos hcommit]
    exact ensures_cloneAtCommit hgit (Or.inl List.mem_cons_self) hN

variable {allowed : Text → Bool} {info : Py} {r : Ref}

theorem validated?_eq_some (h : validated? allowed info = some (v, r)) :
    ∃ url, validateCloneInputs allowed url r = some v := by
  unfold validated? at h
  cases hreq : request? info with
  | none => simp [hreq] at h
  | some req =>
    obtain ⟨url, asked⟩ := req
    cases hval : validateCloneInputs allowed url asked with
    | none => simp [hreq, hval] at h
    | some w =>
      simp only [hreq, hval, Option.bind_eq_bind, Option.bind_some, Option.ite_none_right_eq_some,
        Option.some.injEq, Prod.mk.injEq] at h
      obtain ⟨-, rfl, rfl⟩ := h
      exact ⟨url, hval⟩

/-- The directory of an entry. -/
def dir? (allowed : Text → Bool) (info : Py) : Option Text :=
  (validated? allowed info).map fun e => e.1.repoName

theorem ensures_entry (hgit : Faithful host view) (hinfo : validated? allowed info = some (v, r))
    (hcommit : v.ref.type = .commit) :
    Ensures (fun n => n.1 = v.repoName → PinCommand v n.2) (fun _ => True)
      (syncEntry host allowed info) fun b w => AtRef view v.ref.value b (w v.repoName) := by
  obtain ⟨url, hval⟩ := validated?_eq_some hinfo
  have hsync : Ensures (PinCommand v) (fun _ => True) (cloneOrUpdateRepo host allowed v.repoUrl r)
      (AtRef view v.ref.value) := by
    unfold cloneOrUpdateRepo
    rw [validateCloneInputs_validated hval]
    exact ensures_validated hgit hcommit
  have hbody : Ensures (PinCommand v) (fun _ => True)
      (do
        let inside ← contained host
        if inside then do
          let synced ← cloneOrUpdateRepo host allowed v.repoUrl r
          if synced then do
            afterSync host info r
            pure true
          else pure false
        else pure false)
      (AtRef view v.ref.value) := by
    refine ensures_contained.bind fun inside => Ensures.ite (fun _ => ?_)
      fun _ => ensures_no atRef_false
    refine (hsync.pre fun _ _ => trivial).bind fun synced => Ensures.ite ?_
      fun _ => ensures_no atRef_false
    rintro rfl
    have hafter := (throughout_afterSync hgit v info r).ensures.pre
      fun s (hs : AtRef view v.ref.value true s) => hs rfl
    exact hafter.bind fun _ => Ensures.pure fun _ hs _ => hs
  unfold syncEntry
  rw [hinfo]
  exact hbody.within.conseq (fun _ hn _ => hn.2) (fun _ _ => trivial) fun _ _ hy => hy

theorem ensures_other {name : Text} {P : σ → Prop} {M : Cmd → Prop}
    (hother : dir? allowed info ≠ some name) :
    Ensures (fun n => n.1 = name → M n.2) (fun w => P (w name)) (syncEntry host allowed info)
      fun _ w => P (w name) := by
  unfold syncEntry
  split
  · exact Ensures.pure fun _ hs => hs
  · next w asked hw =>
    have hne : w.repoName ≠ name := fun h => hother (by rw [dir?, hw, Option.map_some, h])
    refine (Ensures.within_of_ne hne).conseq (fun n hn hname => ?_) (fun _ hs => hs)
      fun _ _ hy => hy
    exact absurd (hn.symm.trans hname) hne

/-- **Pinned commits hold**: no command on the directory of an entry that is pinned to a commit
names anything else, queries of the remote apart, and if the entry is ready, the commit is checked
out when the loop is over; a full hash that is no tag's is that very commit. No other entry may have
the same directory. -/
theorem pins_hold (hgit : Faithful host view) {entries : List Py} (w : Text → σ) {flags : List Bool}
    (hrun : (syncEntries host allowed entries w).result = .ok flags) (before after : List Py)
    (hentries : entries = before ++ info :: after) (hinfo : validated? allowed info = some (v, r))
    (hcommit : v.ref.type = .commit)
    (halone : ∀ other ∈ before ++ after, dir? allowed other ≠ some v.repoName) :
    (∀ n ∈ (syncEntries host allowed entries w).notes, n.1 = v.repoName → PinCommand v n.2) ∧
      (flags[before.length]? = some true →
        view.IsAt v.ref.value ((syncEntries host allowed entries w).state v.repoName) ∧
          (isFullCommitSha v.ref.value = true →
            ¬ view.clashes v.ref.value ((syncEntries host allowed entries w).state v.repoName) →
            ¬ view.tagObject v.ref.value ((syncEntries host allowed entries w).state v.repoName) →
            view.head ((syncEntries host allowed entries w).state v.repoName) =
              some (v.ref.value.map Char.toLower))) := by
  have hbefore : ∀ other ∈ before, dir? allowed other ≠ some v.repoName := fun other ho =>
    halone other (List.mem_append_left _ ho)
  have hafter : ∀ other ∈ after, dir? allowed other ≠ some v.repoName := fun other ho =>
    halone other (List.mem_append_right _ ho)
  have hloop := Ensures.collect_at
    (fun other ho => ensures_other (P := fun _ => True) (hbefore other ho))
    (ensures_entry hgit hinfo hcommit)
    (fun other ho b => ensures_other (P := AtRef view v.ref.value b) (hafter other ho))
  subst hentries
  obtain ⟨hnotes, hresult⟩ := hloop w trivial
  refine ⟨hnotes, fun hflag => ?_⟩
  obtain ⟨b, hb, hat⟩ := hresult flags hrun
  obtain rfl : b = true := Option.some.inj (hb.symm.trans hflag)
  refine ⟨hat rfl, fun hfull hclash htag => ?_⟩
  obtain ⟨commit, hhead, hresolve⟩ := hat rfl hclash
  rw [← hgit.full _ _ _ hfull hresolve htag]
  exact hhead

/-! ## Tags -/

theorem ensures_fetchTag (hgit : Faithful host view) :
    Ensures (fun _ => True) X (tryFetchAndCheckoutTag host ref) (AtRef view ref) := by
  have hany : ∀ {cmd retries} {X : σ → Prop},
      Ensures (fun _ => True) X (host.git? cmd retries) fun _ _ => True :=
    ensures_git? trivial fun _ _ _ => trivial
  unfold tryFetchAndCheckoutTag
  refine Ensures.catching ?_ (ensures_no atRef_false)
  refine (hany.catching (hany.catching hany)).bind fun _ => ?_
  exact ensures_checkout hgit trivial

theorem ensures_removeDir : Ensures N X (removeDir host) fun _ _ => True :=
  fun _ _ => ⟨fun _ hn => absurd hn List.not_mem_nil, fun _ _ => trivial⟩

theorem ensures_cloneAtTag (hgit : Faithful host view) {url : Text} {tag : Ref}
    (htag : tag.type = .tag) (branches : List (Option Text)) :
    Ensures (fun _ => True) X (cloneNewRepoToBranchOrTag host url tag branches)
      (AtRef view tag.value) := by
  have hafter : Ensures (fun _ => True) (fun _ => True) (afterClone host tag)
      (AtRef view tag.value) := by
    unfold afterClone
    rw [htag]
    refine ((ensures_alreadyAt hgit trivial trivial).catching (ensures_no atRef_false)).bind
      fun there => Ensures.ite ?_ fun _ => ensures_fetchTag hgit
    rintro rfl
    exact Ensures.pure fun _ hs => hs
  induction branches generalizing X with
  | nil => exact ensures_no atRef_false
  | cons branch branches ih =>
    refine Ensures.bind (Ensures.attempt (ensures_removeDir.bind fun _ =>
      (ensures_any trivial).bind fun _ => hafter)) fun outcome => ?_
    match outcome with
    | .ok true => exact Ensures.pure fun _ hs => hs true rfl
    | .ok false => exact ih
    | .error e =>
      refine Ensures.ite (fun _ => ih) fun _ => ?_
      split
      · exact ensures_no atRef_false
      · exact Ensures.raise

/-- **A tag that is cloned is checked out**; there is no fallback to another branch. -/
theorem tag_cloned (hgit : Faithful host view) (htag : v.ref.type = .tag) :
    Ensures (fun _ => True) (fun s => host.isDir s = false) (cloneOrUpdateRepoValidated host v)
      (AtRef view v.ref.value) := by
  have hnot : v.ref.type ≠ .commit := by simp [htag]
  unfold cloneOrUpdateRepoValidated
  refine Ensures.catching ?_ (ensures_no atRef_false)
  refine Ensures.bind (R := fun there s => there = host.isDir s ∧ host.isDir s = false) ?_ ?_
  · exact fun s hs => ⟨fun _ hn => absurd hn List.not_mem_nil,
      fun _ hb => ⟨(Except.ok.inj hb).symm, hs⟩⟩
  · intro there
    refine Ensures.ite (fun hthere s hs => ?_) fun _ => ?_
    · rw [hthere, hs.2] at hs
      exact absurd hs.1.symm Bool.false_ne_true
    · rw [if_neg hnot]
      exact ensures_cloneAtTag hgit htag _

/-! ## A small git -/

/-- Two commits of a remote: the head of its default branch, and one that only a fetch brings. -/
inductive Commit
  | tip
  | aside
  deriving DecidableEq

def Commit.sha : Commit → Text
  | .tip => "1111111111111111111111111111111111111111".toList
  | .aside => "ab22222222222222222222222222222222222222".toList

/-- A directory without a working copy, or with one of the remote. -/
structure Copy where
  present : Bool
  head : Commit
  known : List Commit
  deriving DecidableEq

/-- The commit of a revision. -/
def Copy.find (s : Copy) (suffix : Text → Text) (rev : Text) : Option Commit :=
  s.known.find? fun commit => suffix commit.sha == rev

/-- The remote has the two commits, one default branch and no tags. -/
def twoCommits : Host Copy where
  git cmd s :=
    match cmd with
    | .clone (some _) _ => (.error .failed, s)
    | .clone none _ => (.ok [], ⟨true, .tip, [.tip]⟩)
    | .revParse rev =>
      if rev = head then (.ok s.head.sha, s)
      else ((s.find derefCommit rev).elim (.error .failed) fun commit => .ok commit.sha, s)
    | .fetch args =>
      if args = ["--depth=1".toList, origin, Commit.aside.sha] then
        (.ok [], { s with known := .aside :: s.known })
      else if args = [origin] then (.ok [], s)
      else (.error .failed, s)
    | .checkout [ref] =>
      if ref = "main".toList then (.ok [], { s with head := .tip })
      else (s.find id ref).elim (.error .failed, s) fun commit => (.ok [], { s with head := commit })
    | .checkout _ => (.error .failed, s)
    | .lsRemote args =>
      if args = ["--symref".toList, origin, head] then
        (.ok ("ref: refs/heads/main\tHEAD\n".toList ++ Commit.tip.sha ++ "\tHEAD\n".toList), s)
      else if args = [origin, "refs/heads/main".toList] then
        (.ok (Commit.tip.sha ++ "\trefs/heads/main\n".toList), s)
      else (.ok [], s)
    | .pull ref => (if ref = "main".toList then .ok [] else .error .failed, s)
  isDir s := s.present
  contained _ := true
  makedirs s := (true, s)
  rmtree s := { s with present := false }
  pinCheckDue _ := true
  savePinCheck _ s := s
  installRequirements _ s := (.ok (), s)

/-- Only the default branch has a name that a revision could have. -/
def copyView : View Copy where
  head s := some s.head.sha
  resolve ref s := (s.find id ref).map Commit.sha
  clashes ref _ := ref = "main".toList
  tagObject _ _ := False

theorem Commit.strip_sha (commit : Commit) : stripChars commit.sha = commit.sha := by
  cases commit <;> decide

theorem Commit.lower_sha (commit : Commit) : commit.sha.map Char.toLower = commit.sha := by
  cases commit <;> decide

theorem Copy.find_deref (s : Copy) (ref : Text) :
    s.find derefCommit (derefCommit ref) = s.find id ref := by
  unfold Copy.find
  congr 1
  funext commit
  rw [Bool.eq_iff_iff, beq_iff_eq, beq_iff_eq]
  exact List.append_left_inj _

theorem twoCommits_head (s : Copy) :
    twoCommits.git (.revParse head) s = (.ok s.head.sha, s) := by
  unfold twoCommits
  dsimp only
  rw [if_pos rfl]

theorem twoCommits_deref (ref : Text) (s : Copy) :
    twoCommits.git (.revParse (derefCommit ref)) s =
      ((s.find id ref).elim (.error .failed) fun commit => .ok commit.sha, s) := by
  have hne : derefCommit ref ≠ head := by
    intro heq
    have hlast := congrArg List.getLast? heq
    simp [derefCommit, head] at hlast
  rw [← s.find_deref]
  exact if_neg hne

theorem twoCommits_faithful : Faithful twoCommits copyView where
  revParse_keeps s := by
    rw [twoCommits_head]
    exact ⟨rfl, fun _ => rfl, fun _ h => h⟩
  revParse_head out s h := by
    rw [twoCommits_head] at h
    rw [← Except.ok.inj h, Commit.strip_sha]
    rfl
  revParse_commit ref out s h := by
    rw [twoCommits_deref] at h ⊢
    refine ⟨rfl, ?_⟩
    show (s.find id ref).map Commit.sha = _
    cases hfind : s.find id ref with
    | none => simp [hfind] at h
    | some commit =>
      rw [hfind] at h
      rw [← Except.ok.inj h, Commit.strip_sha]
      rfl
  checkout ref out s h hclash := by
    have hne : ¬ ref = "main".toList := hclash
    simp only [twoCommits, if_neg hne] at h ⊢
    cases hfind : s.find id ref with
    | none => simp [hfind] at h
    | some commit =>
      refine ⟨commit.sha, rfl, ?_⟩
      show ((s.find id ref).map Commit.sha : Option Text) = _
      rw [hfind]
      rfl
  full ref commit s _ h _ := by
    obtain ⟨found, hfound, rfl⟩ := Option.map_eq_some_iff.mp h
    have hsha := List.find?_some hfound
    rw [beq_iff_eq, id_eq] at hsha
    rw [← hsha, Commit.lower_sha]
  lsRemote_keeps args s := by
    have hsame : (twoCommits.git (.lsRemote args) s).2 = s := by
      simp only [twoCommits]
      split_ifs <;> rfl
    rw [hsame]
    exact ⟨rfl, fun _ => rfl, fun _ h => h⟩
  savePinCheck_keeps _ _ := ⟨rfl, fun _ => rfl, fun _ h => h⟩
  install_keeps _ _ := ⟨rfl, fun _ => rfl, fun _ h => h⟩

/-- An entry, as the configuration has it. -/
def entryAt (field value : String) : Py :=
  .dict [("active", .bool true), ("repository", .str "https://github.com/owner/plug"),
    (field, .str value)]

/-- There is no working copy yet. -/
def noCopy : Text → Copy := fun _ => ⟨false, .tip, []⟩

/-- The pinned commit is not part of the clone: it is fetched, and checked out then. -/
theorem pins_hold_fetched :
    (syncEntries twoCommits (fun _ => true)
      [entryAt "commit" "ab22222222222222222222222222222222222222"] noCopy).result = .ok [true] ∧
    copyView.head ((syncEntries twoCommits (fun _ => true)
      [entryAt "commit" "ab22222222222222222222222222222222222222"] noCopy).state
        "plug".toList) = some Commit.aside.sha := by
  have hrun : (syncEntries twoCommits (fun _ => true)
      [entryAt "commit" "ab22222222222222222222222222222222222222"] noCopy).result = .ok [true] :=
    rfl
  refine ⟨hrun, ?_⟩
  have hasked : validated? (fun _ => true)
      (entryAt "commit" "ab22222222222222222222222222222222222222") =
        some (⟨"https://github.com/owner/plug".toList, ⟨.commit, Commit.aside.sha⟩,
          "plug".toList⟩, ⟨.commit, Commit.aside.sha⟩) := by decide
  have hpins := pins_hold twoCommits_faithful noCopy hrun [] [] rfl hasked rfl
    fun _ h => absurd h List.not_mem_nil
  exact (hpins.2 rfl).2 (by decide) (show ¬ Commit.aside.sha = "main".toList by decide) id

/-- A tag that the remote does not have: an update takes the default branch for it, where a clone
fails. -/
theorem tag_falls_back :
    (syncEntries twoCommits (fun _ => true) [entryAt "tag" "v1"]
      fun _ => ⟨true, .tip, [.tip]⟩).result = .ok [true] ∧
    (syncEntries twoCommits (fun _ => true) [entryAt "tag" "v1"] noCopy).result = .ok [false] :=
  ⟨rfl, rfl⟩

end MMRelay.Loader.Pin
