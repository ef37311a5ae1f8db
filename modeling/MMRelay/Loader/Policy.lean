import MMRelay.Lib.Labels
import MMRelay.Lib.Url
import MMRelay.Loader.Checkout
import MMRelay.Matrix.BotUser

/-!
# Which repositories may be cloned

`_is_repo_url_allowed` and the settings it reads (`plugin_loader.py`), and what follows for the
community plugin directory over runs of the loader.

* `getAllowedRepoHosts`, `hostInAllowlist`, `normalizeRepoTarget`, `isRepoUrlAllowed`;
* `ReadsHost`: the host that the policy reads in a URL or after `git@`;
* **`isRepoUrlAllowed_iff`**: what is allowed, in terms of hosts and labels;
* `Governed`: the loader asks a policy before it clones;
* **`clones_permitted`**: no run replaces what is there, and all else comes from what is permitted.
-/

namespace MMRelay.Loader.Policy

open Checkout

/-! ## The settings -/

/-- The configuration, which is a dictionary, and `os.path.exists`. -/
structure Settings where
  config : List (String × Py)
  pathExists : Text → Bool

/-- `_get_security_settings`. -/
def getSecuritySettings (config : List (String × Py)) : List (String × Py) :=
  match config.lookup "security" with
  | some (.dict security) => security
  | _ => []

/-- `DEFAULT_ALLOWED_COMMUNITY_HOSTS`. -/
def defaultAllowedCommunityHosts : List Text :=
  ["github.com", "gitlab.com", "codeberg.org", "bitbucket.org"].map String.toList

/-- An entry of the list of hosts that is a text and not blank. -/
def repoHost (u : Urls) : Py → Option Text
  | .str host =>
    if stripChars host.toList = [] then none else some (u.lower (stripChars host.toList))
  | _ => none

/-- `_get_allowed_repo_hosts`. -/
def getAllowedRepoHosts (u : Urls) (config : List (String × Py)) : List Text :=
  match (getSecuritySettings config).lookup "community_repo_hosts" with
  | some (.str host) => [Py.str host].filterMap (repoHost u)
  | some (.list hosts) => hosts.filterMap (repoHost u)
  | _ => defaultAllowedCommunityHosts

/-- `_allow_local_plugin_paths`. -/
def allowLocalPluginPaths (config : List (String × Py)) : Bool :=
  (((getSecuritySettings config).lookup "allow_local_plugin_paths").getD (.bool false)).truthy

/-! ## The target of a repository -/

/-- `_host_in_allowlist`. -/
def hostInAllowlist (u : Urls) (host : Text) (allowlist : List Text) : Bool :=
  let host := u.lower host
  if host = [] then false
  else
    allowlist.any fun allowed =>
      let allowed := u.lower allowed
      decide (host = allowed) || ('.' :: allowed).isSuffixOf host

/-- `_normalize_repo_target`: the scheme and the host. -/
def normalizeRepoTarget (u : Urls) (repoUrl : Text) : Except PyErr (Text × Text) :=
  let repoUrl := stripChars repoUrl
  if startsWith "git@" repoUrl then
    let hostAndPath := (repoUrl.dropWhile (· ≠ '@')).drop 1
    .ok ("ssh".toList, u.lower (hostAndPath.takeWhile (· ≠ ':')))
  else do
    let hostname ← urlHostname u repoUrl
    let scheme := urlScheme repoUrl
    let host := u.lower (hostname.getD [])
    if scheme = "git+ssh".toList ∨ scheme = "ssh+git".toList then pure ("ssh".toList, host)
    else pure (scheme, host)

/-- `_is_repo_url_allowed`. -/
def isRepoUrlAllowed (u : Urls) (s : Settings) (repoUrl : Text) : Except PyErr Bool :=
  let repoUrl := stripChars repoUrl
  if repoUrl = [] then .ok false
  else if startsWith "-" repoUrl then .ok false
  else do
    let (scheme, host) ← normalizeRepoTarget u repoUrl
    if scheme = [] then
      if allowLocalPluginPaths s.config then pure (s.pathExists repoUrl) else pure false
    else if scheme = "file".toList then pure (allowLocalPluginPaths s.config)
    else if scheme = "http".toList then pure false
    else if scheme ≠ "https".toList ∧ scheme ≠ "ssh".toList then pure false
    else pure (hostInAllowlist u host (getAllowedRepoHosts u s.config))

/-- The answer that lets a repository pass; an exception does not. -/
def allows (u : Urls) (s : Settings) (repoUrl : Text) : Bool :=
  match isRepoUrlAllowed u s repoUrl with
  | .ok b => b
  | .error _ => false

/-! ## What is permitted -/

/-- The schemes that `_is_repo_url_allowed` takes for https and ssh. -/
def remoteSchemes : List Text := ["https", "ssh", "git+ssh", "ssh+git"].map String.toList

/-- The host that the policy reads: up to the first colon after `git@`, or that of `urlparse`. What
git makes of the text can differ, as with `%2f` in the host of an ssh URL. -/
inductive ReadsHost (u : Urls) (url : Text) : Text → Prop
  | spec (host path : Text) (hurl : url = "git@".toList ++ (host ++ path)) (hhost : ':' ∉ host)
      (hpath : path = [] ∨ path.head? = some ':') : ReadsHost u url (u.lower host)
  | url (host : Text) (hurl : startsWith "git@" url = false) (hscheme : urlScheme url ∈ remoteSchemes)
      (hhost : urlHostname u url = .ok (some host)) : ReadsHost u url (u.lower host)

/-- Where a repository may be. -/
inductive Target (u : Urls) (s : Settings) (url : Text) : Prop
  /-- On a host of the list, or on a host below one. -/
  | remote (host allowed : Text) (hreads : ReadsHost u url host) (hne : host ≠ [])
      (hallowed : allowed ∈ getAllowedRepoHosts u s.config)
      (hbelow : AtOrBelow '.' host (u.lower allowed))
  /-- Here, at a path or at a `file` URL. -/
  | here (hlocal : allowLocalPluginPaths s.config = true) (hspec : startsWith "git@" url = false)
      (hurl : (urlHostname u url).isOk = true)
      (hscheme : urlScheme url = [] ∧ s.pathExists url = true ∨ urlScheme url = "file".toList)

/-- A repository that the settings permit. -/
structure Permitted (u : Urls) (s : Settings) (url : Text) : Prop where
  ne_nil : url ≠ []
  /-- git does not take it for an option. -/
  undashed : startsWith "-" url = false
  target : Target u s url

variable {u : Urls} {s : Settings} {url : Text}

theorem lower_nil (u : Urls) : u.lower [] = [] := u.lower_again [] [] List.nil_infix

theorem lower_lower (u : Urls) (t : Text) : u.lower (u.lower t) = u.lower t :=
  u.lower_again t (u.lower t) List.infix_rfl

theorem hostInAllowlist_iff {host : Text} {allowlist : List Text} :
    hostInAllowlist u host allowlist = true ↔
      u.lower host ≠ [] ∧ ∃ allowed ∈ allowlist, AtOrBelow '.' (u.lower host) (u.lower allowed) := by
  unfold hostInAllowlist
  dsimp only
  split_ifs with hnil
  · simp [hnil]
  · simp only [List.any_eq_true, Bool.or_eq_true, decide_eq_true_eq, List.isSuffixOf_iff_suffix,
      atOrBelow_iff]
    exact ⟨fun h => ⟨hnil, h⟩, fun h => h.2⟩

/-- The host of `git@host:path` is what stands before the first colon. -/
theorem readsHost_spec (hspec : startsWith "git@" url = true) :
    ReadsHost u url (u.lower (((url.dropWhile (· ≠ '@')).drop 1).takeWhile (· ≠ ':'))) := by
  obtain ⟨rest, rfl⟩ := List.isPrefixOf_iff_prefix.mp hspec
  have hrest : (("git@".toList ++ rest).dropWhile (· ≠ '@')).drop 1 = rest := by
    simp
  rw [hrest]
  refine ReadsHost.spec _ (rest.dropWhile (· ≠ ':')) ?_ ?_ ?_
  · rw [List.takeWhile_append_dropWhile]
  · intro hmem
    exact absurd (List.mem_takeWhile_imp hmem) (by simp)
  · cases hd : rest.dropWhile (· ≠ ':') with
    | nil => exact Or.inl rfl
    | cons c cs =>
      have hc := List.head?_dropWhile_not (· ≠ ':') rest
      rw [hd] at hc
      right
      simpa using hc

theorem readsHost_spec_iff (hspec : startsWith "git@" url = true) {host : Text} :
    ReadsHost u url host ↔
      host = u.lower (((url.dropWhile (· ≠ '@')).drop 1).takeWhile (· ≠ ':')) := by
  constructor
  · intro h
    cases h with
    | spec name path hurl hname hpath =>
      have hrest : (url.dropWhile (· ≠ '@')).drop 1 = name ++ path := by
        rw [hurl]
        simp
      have htake : (name ++ path).takeWhile (· ≠ ':') = name := by
        have hmem : ∀ c ∈ name, decide (c ≠ ':') = true := by
          intro c hc
          exact decide_eq_true fun he => hname (he ▸ hc)
        rw [List.takeWhile_append_of_pos hmem]
        obtain rfl | hhead := hpath
        · simp
        · cases path with
          | nil => cases hhead
          | cons c cs =>
            obtain rfl : c = ':' := Option.some.inj hhead
            simp
      rw [hrest, htake]
    | url name hurl => exact absurd (hspec.symm.trans hurl) (by decide)
  · rintro rfl
    exact readsHost_spec hspec

theorem readsHost_url_iff (hspec : startsWith "git@" url = false) {host : Text} :
    ReadsHost u url host ↔ urlScheme url ∈ remoteSchemes ∧
      ∃ name, urlHostname u url = .ok (some name) ∧ host = u.lower name := by
  constructor
  · intro h
    cases h with
    | spec name path hurl =>
      have hpre : startsWith "git@" url = true :=
        List.isPrefixOf_iff_prefix.mpr ⟨name ++ path, hurl.symm⟩
      exact absurd (hpre.symm.trans hspec) (by decide)
    | url name _ hscheme hhost => exact ⟨hscheme, name, hhost, rfl⟩
  · rintro ⟨hscheme, name, hhost, rfl⟩
    exact ReadsHost.url name hspec hscheme hhost

/-- A target given as `git@host:path` is a host. -/
theorem target_spec_iff (hspec : startsWith "git@" url = true) :
    Target u s url ↔
      hostInAllowlist u (u.lower (((url.dropWhile (· ≠ '@')).drop 1).takeWhile (· ≠ ':')))
        (getAllowedRepoHosts u s.config) = true := by
  rw [hostInAllowlist_iff, lower_lower]
  constructor
  · intro h
    cases h with
    | remote host allowed hreads hne hallowed hbelow =>
      rw [readsHost_spec_iff hspec] at hreads
      subst hreads
      exact ⟨hne, allowed, hallowed, hbelow⟩
    | here _ hnot => exact absurd (hspec.symm.trans hnot) (by decide)
  · rintro ⟨hne, allowed, hallowed, hbelow⟩
    exact Target.remote _ allowed (readsHost_spec hspec) hne hallowed hbelow

theorem target_url_iff (hspec : startsWith "git@" url = false) {hostname : Option Text}
    (hhost : urlHostname u url = .ok hostname) :
    Target u s url ↔
      urlScheme url ∈ remoteSchemes ∧ hostInAllowlist u (u.lower (hostname.getD []))
          (getAllowedRepoHosts u s.config) = true ∨
        allowLocalPluginPaths s.config = true ∧
          (urlScheme url = [] ∧ s.pathExists url = true ∨ urlScheme url = "file".toList) := by
  rw [hostInAllowlist_iff, lower_lower]
  constructor
  · intro h
    cases h with
    | remote host allowed hreads hne hallowed hbelow =>
      obtain ⟨hscheme, name, hname, rfl⟩ := (readsHost_url_iff hspec).mp hreads
      obtain rfl : hostname = some name := Except.ok.inj (hhost.symm.trans hname)
      exact Or.inl ⟨hscheme, hne, allowed, hallowed, hbelow⟩
    | here hlocal _ _ hscheme => exact Or.inr ⟨hlocal, hscheme⟩
  · rintro (⟨hscheme, hne, allowed, hallowed, hbelow⟩ | ⟨hlocal, hscheme⟩)
    · cases hostname with
      | none => exact absurd (lower_nil u) hne
      | some name =>
        exact Target.remote _ allowed (ReadsHost.url name hspec hscheme hhost) hne hallowed hbelow
    · exact Target.here hlocal hspec (isOk_iff.mpr ⟨hostname, hhost⟩) hscheme

theorem normalizeRepoTarget_spec (hstrip : stripChars url = url)
    (hspec : startsWith "git@" url = true) :
    normalizeRepoTarget u url =
      .ok ("ssh".toList, u.lower (((url.dropWhile (· ≠ '@')).drop 1).takeWhile (· ≠ ':'))) := by
  unfold normalizeRepoTarget
  dsimp only
  rw [hstrip, if_pos hspec]

theorem normalizeRepoTarget_url (hstrip : stripChars url = url)
    (hspec : startsWith "git@" url = false) :
    normalizeRepoTarget u url = (urlHostname u url).map fun hostname =>
      (if urlScheme url = "git+ssh".toList ∨ urlScheme url = "ssh+git".toList then "ssh".toList
        else urlScheme url, u.lower (hostname.getD [])) := by
  unfold normalizeRepoTarget
  dsimp only
  rw [hstrip, if_neg (by rw [hspec]; exact Bool.false_ne_true)]
  cases urlHostname u url with
  | error e => rfl
  | ok hostname =>
    dsimp only [bind, Except.bind, Except.map]
    split_ifs <;> rfl

/-- **What is allowed** is a host of the list, or below one, over https or ssh, or is here. -/
theorem isRepoUrlAllowed_iff (u : Urls) (s : Settings) (repoUrl : Text) :
    isRepoUrlAllowed u s repoUrl = .ok true ↔ Permitted u s (stripChars repoUrl) := by
  have hstrip := stripChars_idem repoUrl
  unfold isRepoUrlAllowed
  generalize stripChars repoUrl = url at hstrip ⊢
  dsimp only
  by_cases hnil : url = []
  · rw [if_pos hnil]
    exact iff_of_false (by simp) fun h => h.ne_nil hnil
  by_cases hdash : startsWith "-" url = true
  · rw [if_neg hnil, if_pos hdash]
    exact iff_of_false (by simp) fun h => absurd (hdash.symm.trans h.undashed) (by decide)
  rw [if_neg hnil, if_neg hdash]
  rw [Bool.not_eq_true] at hdash
  have hperm : Permitted u s url ↔ Target u s url := ⟨fun h => h.target, fun h => ⟨hnil, hdash, h⟩⟩
  rw [hperm]
  cases hspec : startsWith "git@" url with
  | true =>
    rw [normalizeRepoTarget_spec hstrip hspec, target_spec_iff hspec]
    simp [bind, Except.bind, pure, Except.pure]
  | false =>
    rw [normalizeRepoTarget_url hstrip hspec]
    cases hhost : urlHostname u url with
    | error e =>
      refine iff_of_false (by simp [Except.map, bind, Except.bind]) fun h => ?_
      cases h with
      | remote host allowed hreads =>
        obtain ⟨-, name, hname, -⟩ := (readsHost_url_iff hspec).mp hreads
        cases hhost.symm.trans hname
      | here _ _ hurl =>
        rw [hhost] at hurl
        cases hurl
    | ok hostname =>
      rw [target_url_iff hspec hhost]
      dsimp only [Except.map, bind, Except.bind]
      generalize urlScheme url = scheme
      by_cases hgit : scheme = "git+ssh".toList ∨ scheme = "ssh+git".toList
      · rw [if_pos hgit]
        obtain rfl | rfl := hgit <;> simp [remoteSchemes, pure, Except.pure]
      · rw [if_neg hgit]
        rw [not_or] at hgit
        by_cases hnone : scheme = []
        · subst hnone
          cases allowLocalPluginPaths s.config <;> simp [remoteSchemes, pure, Except.pure]
        by_cases hfile : scheme = "file".toList
        · subst hfile
          simp [remoteSchemes, pure, Except.pure]
        by_cases hhttp : scheme = "http".toList
        · subst hhttp
          simp [remoteSchemes, pure, Except.pure]
        by_cases hremote : scheme = "https".toList ∨ scheme = "ssh".toList
        · obtain rfl | rfl := hremote <;> simp [remoteSchemes, pure, Except.pure]
        · rw [not_or] at hremote
          rw [if_neg hnone, if_neg hfile, if_neg hhttp, if_pos hremote]
          refine iff_of_false (by simp [pure, Except.pure]) ?_
          rintro (⟨hscheme, -⟩ | ⟨-, ⟨hscheme, -⟩ | hscheme⟩)
          · simp only [remoteSchemes, List.map_cons, List.map_nil, List.mem_cons, List.not_mem_nil,
              or_false] at hscheme
            tauto
          · exact hnone hscheme
          · exact hfile hscheme

/-! ## What a sync may add -/

/-- The loader asks a policy, one of those in force, before it clones. -/
def Governed (u : Urls) (inForce : Settings → Prop) : State → Act → Prop
  | _, .sync env => ∃ s, inForce s ∧ env.allowed = allows u s
  | _, _ => True

/-- Where a directory comes from: it was there, or it was cloned from a permitted repository, or it
is what a clone left that failed. -/
def Origin (first : Content) (permitted : Text → Prop) (name : Text) (d : Dir) : Prop :=
  first name = some d ∨
    first name = none ∧ (d = .plain ∨ ∃ url, permitted url ∧ d = .checkout (some url))

/-- What was there is there, all else is of permitted origin, and so are the plugins loaded from
the community plugin directory. -/
structure Traced (first : Content) (permitted : Text → Prop) (s : State) : Prop where
  kept : ∀ name d, first name = some d → s.content name = some d
  content : ∀ name d, s.content name = some d → Origin first permitted name d
  loaded : ∀ l ∈ s.loaded, l.place = 0 → Origin first permitted l.name l.found

theorem allows_eq_true : allows u s url = true ↔ isRepoUrlAllowed u s url = .ok true := by
  unfold allows
  cases isRepoUrlAllowed u s url with
  | error e => simp
  | ok b => simp

theorem permitted_of_validateCloneInputs {ref : Ref} {v : Validated}
    (h : validateCloneInputs (allows u s) url ref = some v) : Permitted u s v.repoUrl := by
  have hurl := (validateCloneInputs_eq_some h).1
  have hallowed : allows u s (stripChars url) = true := by
    unfold validateCloneInputs at h
    dsimp only at h
    split_ifs at h with hbad
    by_contra hnot
    rw [Bool.not_eq_true] at hnot
    exact hbad (by rw [hnot]; rfl)
  rw [hurl, ← stripChars_idem url]
  exact (isRepoUrlAllowed_iff u s _).mp (allows_eq_true.mp hallowed)

/-- What a clone leaves is a working copy of the repository, or none. -/
theorem cloneNewRepo_dir {clone : Option Text → CloneOutcome} {isDefault : Bool}
    {branches : List (Option Text)} {left : Option Dir}
    (hleft : ∀ d ∈ left, d = .plain ∨ d = .checkout (some url)) :
    ∀ d ∈ (cloneNewRepo clone url isDefault branches left).1,
      d = .plain ∨ d = .checkout (some url) := by
  have hcopy : ∀ d ∈ some (Dir.checkout (some url)), d = .plain ∨ d = .checkout (some url) := by
    intro d hd
    exact Or.inr (Option.some.inj hd).symm
  induction branches generalizing left with
  | nil => exact hleft
  | cons branch branches ih =>
    unfold cloneNewRepo
    cases clone branch with
    | notRun =>
      intro d hd
      cases hd
    | failed l =>
      refine ih fun d hd => ?_
      cases l with
      | nothing => cases hd
      | plain => exact Or.inl (Option.some.inj hd).symm
      | configured => exact hcopy d hd
    | cloned reached =>
      dsimp only
      split_ifs
      · exact hcopy
      · cases reached with
        | yes => exact hcopy
        | no => exact ih hcopy
        | stopped => exact hcopy

/-- A sync fills a free name from a permitted repository and leaves all others as they are. -/
theorem syncEntry_content {env : SyncEnv} (hallowed : env.allowed = allows u s) (content : Content)
    (info : Py) (name : Text) :
    (syncEntry env content info).1 name = content name ∨
      content name = none ∧ ∀ d ∈ (syncEntry env content info).1 name,
        d = .plain ∨ ∃ url, Permitted u s url ∧ d = .checkout (some url) := by
  obtain heq | ⟨url, ref, v, -, hv, -, heq⟩ := syncEntry_eq_or env content info
  · rw [heq]
    exact Or.inl rfl
  · rw [hallowed] at hv
    rw [heq]
    unfold cloneOrUpdateRepoValidated
    split
    · exact Or.inl rfl
    · exact Or.inl rfl
    · next hnone =>
      dsimp only
      by_cases hname : name = v.repoName
      · subst hname
        rw [Function.update_self]
        refine Or.inr ⟨hnone, fun d hd => ?_⟩
        have hdir := cloneNewRepo_dir (fun d hd => by cases hd) d hd
        exact hdir.imp_right fun hd => ⟨v.repoUrl, permitted_of_validateCloneInputs hv, hd⟩
      · rw [Function.update_of_ne hname]
        exact Or.inl rfl

theorem le_of_findPlugin {raises : ℕ → Bool} {name : Text} {dirs : List Content} {place k : ℕ}
    {d : Dir} (h : findPlugin raises name place dirs = some (k, d)) : place ≤ k := by
  induction dirs generalizing place with
  | nil => cases h
  | cons c cs ih =>
    unfold findPlugin at h
    split at h
    · exact (Nat.le_succ place).trans (ih h)
    · split_ifs at h
      · cases h
        exact le_rfl
      · exact (Nat.le_succ place).trans (ih h)

theorem findPlugin_zero {raises : ℕ → Bool} {name : Text} {c : Content} {cs : List Content}
    {d : Dir} (h : findPlugin raises name 0 (c :: cs) = some (0, d)) : c name = some d := by
  unfold findPlugin at h
  split at h
  · exact absurd (le_of_findPlugin h) (by omega)
  · next e he =>
    split_ifs at h
    · cases h
      exact he
    · exact absurd (le_of_findPlugin h) (by omega)

/-- What is found in the community plugin directory is what has the name there. -/
theorem content_of_loadEntry {content : Content} {search : Search} {info : Py} {l : Loaded}
    (h : loadEntry content search info = some l) (hplace : l.place = 0) :
    content l.name = some l.found := by
  unfold loadEntry at h
  split at h
  · cases h
  · split at h
    · cases h
    · split_ifs at h
      split at h
      · next place d hfind =>
        split_ifs at h
        cases h
        dsimp only at hplace ⊢
        subst hplace
        exact findPlugin_zero hfind
      · cases h

/-! ## The runs -/

namespace Traced

variable {first : Content} {permitted : Text → Prop} {s t : State}

theorem initial (first : Content) (permitted : Text → Prop) :
    Traced first permitted (initial first) where
  kept _ _ h := h
  content _ _ h := Or.inl h
  loaded _ h := by cases h

theorem sync {env : SyncEnv} {settings : Settings} (h : Traced first permitted s)
    (hallowed : env.allowed = allows u settings)
    (hpermitted : ∀ url, Permitted u settings url → permitted url)
    (hstep : step s (.sync env) = some t) : Traced first permitted t := by
  unfold step at hstep
  dsimp only at hstep
  split at hstep
  · cases hstep
  · next info rest _ =>
    have hcontent : ∀ name,
        (if s.accessible then syncEntry env s.content info else (s.content, false)).1 name =
            s.content name ∨
          s.content name = none ∧
            ∀ d ∈ (if s.accessible then syncEntry env s.content info else (s.content, false)).1 name,
              d = .plain ∨ ∃ url, Permitted u settings url ∧ d = .checkout (some url) := by
      intro name
      split_ifs
      · exact syncEntry_content hallowed s.content info name
      · exact Or.inl rfl
    cases hstep
    refine ⟨fun name d hd => ?_, fun name d hd => ?_, h.loaded⟩
    · obtain heq | ⟨hnone, -⟩ := hcontent name
      · exact heq.trans (h.kept name d hd)
      · rw [h.kept name d hd] at hnone
        cases hnone
    · obtain heq | ⟨hnone, hnew⟩ := hcontent name
      · exact h.content name d (heq.symm.trans hd)
      · refine Or.inr ⟨?_, (hnew d hd).imp_right fun ⟨url, hurl, he⟩ => ⟨url, hpermitted url hurl, he⟩⟩
        by_contra hfirst
        obtain ⟨e, he⟩ := Option.ne_none_iff_exists'.mp hfirst
        rw [h.kept name e he] at hnone
        cases hnone

theorem load {search : Search} (h : Traced first permitted s)
    (hstep : step s (.load search) = some t) : Traced first permitted t := by
  unfold step at hstep
  dsimp only at hstep
  split at hstep
  · cases hstep
    refine ⟨h.kept, h.content, fun l hl hplace => ?_⟩
    obtain hin | hnew := List.mem_append.mp hl
    · exact h.loaded l hin hplace
    · exact h.content _ _ (content_of_loadEntry (Option.mem_toList.mp hnew) hplace)
  · cases hstep

theorem step {inForce : Settings → Prop} {a : Act} (h : Traced first permitted s)
    (hpermitted : ∀ settings url, inForce settings → Permitted u settings url → permitted url)
    (hguard : Governed u inForce s a) (hstep : step s a = some t) : Traced first permitted t := by
  cases a with
  | start config accessible =>
    unfold Checkout.step at hstep
    dsimp only at hstep
    split_ifs at hstep
    cases hstep
    exact ⟨h.kept, h.content, h.loaded⟩
  | sync env =>
    obtain ⟨settings, hforce, hallowed⟩ := hguard
    exact h.sync hallowed (fun url => hpermitted settings url hforce) hstep
  | load search => exact h.load hstep
  | raise =>
    cases hstep
    exact ⟨h.kept, h.content, h.loaded⟩

end Traced

/-- **Clones are permitted.** Whatever the community plugin directory holds at first, and whatever
the entries of the configurations and git do, no run of the loader replaces a directory that is
there; each new working copy is of a repository that a policy in force permits, and every plugin
loaded from the directory comes from such a working copy or from what was there. -/
theorem clones_permitted (u : Urls) (inForce : Settings → Prop) (first : Content) (acts : List Act)
    (h : AllSteps step (Governed u inForce) (initial first) acts) :
    Visited step (Traced first fun url => ∃ s, inForce s ∧ Permitted u s url) (initial first)
      acts :=
  visited_of_invariant
    (fun _ _ _ ht hguard hstep => ht.step (fun s _ hs hp => ⟨s, hs, hp⟩) hguard hstep)
    (fun _ ht => ht) (Traced.initial first _) h

/-- Only one host, and nothing local. -/
def oneHost : Settings :=
  ⟨[("security", .dict [("community_repo_hosts", .list [.str " Example.org "])])], fun _ => true⟩

/-- Every repository can be cloned and updated, if `oneHost` allows it. -/
def guarded : SyncEnv := ⟨allows Matrix.asciiUrls oneHost, true, fun _ => .cloned .yes⟩

/-- A host below the one that is allowed, a host that only ends like it, and a path. -/
def threeEntries : List Act :=
  [.start [entry "https://git.example.org/owner/plug.git", entry "git@badexample.org:owner/other",
      entry "/srv/third"] true,
    .sync guarded, .sync guarded, .sync guarded, .load onlyHere]

theorem clones_permitted_oneHost :
    Visited step (Traced (fun _ => none) fun url => ∃ s, s = oneHost ∧
      Permitted Matrix.asciiUrls s url) (initial fun _ => none) threeEntries ∧
    (runActs step (initial fun _ => none) threeEntries).map State.loaded =
      some [⟨"https://git.example.org/owner/plug.git".toList, 0, "plug".toList,
        .checkout (some "https://git.example.org/owner/plug.git".toList)⟩] := by
  refine ⟨clones_permitted Matrix.asciiUrls (· = oneHost) (fun _ => none) threeEntries ?_, by
    decide +kernel⟩
  intro s1 _
  refine ⟨trivial, fun s2 _ => ⟨⟨oneHost, rfl, rfl⟩, fun s3 _ => ⟨⟨oneHost, rfl, rfl⟩,
    fun s4 _ => ⟨⟨oneHost, rfl, rfl⟩, fun s5 _ => ⟨trivial, trivial⟩⟩⟩⟩⟩

end MMRelay.Loader.Policy
