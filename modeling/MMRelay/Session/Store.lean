import MMRelay.Lib.Dict
import MMRelay.Lib.PyValue

/-!
# The credentials of the bot

Where `credentials.json` is looked for and where it is written: `get_credentials_search_paths`,
`load_credentials` and `save_credentials` (`config.py`) and the removal of the file in
`_cleanup_local_session_data` (`cli_utils.py`).

* `Content`, `Disk`: the files with what reading them as JSON gives, and the directories;
* `Site`: the places of the file; `loadCredentials`, `saveCredentials`, `removeCredentials`;
* **`load_saved`**, `load_failed`, `load_removed`: what is loaded after them.
-/

namespace MMRelay.Session

/-! ## Disks -/

/-- The components of an absolute path. -/
abbrev Path := List String

/-- What reading a file as JSON gives. -/
inductive Content
  | value (v : Py)
  /-- It cannot be opened, or is no JSON. -/
  | refused
  /-- Not UTF-8, an integer of too many digits, or nested too deep: `load_credentials` catches none
  of these. -/
  | raises

/-- Regular files with their content, and directories. -/
structure Disk where
  dirs : Path → Bool
  files : Path → Option Content
  below : ∀ p name, files (p ++ [name]) ≠ none → dirs p = true
  apart : ∀ p, files p ≠ none → dirs p = false

namespace Disk

/-- `os.makedirs(p, exist_ok=True)`; `none` when a file is in the way. -/
def makedirs (d : Disk) (p : Path) : Option Disk :=
  if h : ∀ q ∈ p.inits, d.files q = none then
    some
      { dirs := fun q => d.dirs q || q.isPrefixOf p
        files := d.files
        below := fun q name hq => by rw [d.below q name hq, Bool.true_or]
        apart := fun q hq => by
          rw [d.apart q hq, Bool.false_or, ← Bool.not_eq_true, List.isPrefixOf_iff_prefix]
          exact fun hprefix => hq (h q ((List.mem_inits q p).mpr hprefix)) }
  else none

/-- Open a file in a directory for writing and leave the content in it; `none` when that fails. -/
def write (d : Disk) (dir : Path) (name : String) (content : Content) : Option Disk :=
  if h : d.dirs dir = true ∧ d.dirs (dir ++ [name]) = false then
    some
      { dirs := d.dirs
        files := fun q => if q = dir ++ [name] then some content else d.files q
        below := fun q name' hq => by
          by_cases heq : q ++ [name'] = dir ++ [name]
          · rw [(List.append_inj' heq rfl).1]
            exact h.1
          · rw [if_neg heq] at hq
            exact d.below q name' hq
        apart := fun q hq => by
          by_cases heq : q = dir ++ [name]
          · rw [heq]
            exact h.2
          · rw [if_neg heq] at hq
            exact d.apart q hq }
  else none

/-- `os.remove`. -/
def remove (d : Disk) (p : Path) : Disk where
  dirs := d.dirs
  files := fun q => if q = p then none else d.files q
  below := fun q name hq => by
    split_ifs at hq
    · exact absurd rfl hq
    · exact d.below q name hq
  apart := fun q hq => by
    split_ifs at hq
    · exact absurd rfl hq
    · exact d.apart q hq

end Disk

/-! ## Places -/

/-- `CREDENTIALS_FILENAME`. -/
def credentialsFilename : String := "credentials.json"

/-- What `get_explicit_credentials_path` returns. -/
structure Explicit where
  /-- The directory and the last component. -/
  dir : Path
  name : String
  trailing : Bool

def Explicit.path (e : Explicit) : Path := e.dir ++ [e.name]

/-- The places of `credentials.json`. -/
structure Site where
  explicit : Option Explicit
  /-- The directory of `get_credentials_path`. -/
  matrixDir : Path
  /-- Beside the configuration file, and of earlier versions. -/
  others : List Path

/-- `get_credentials_path`. -/
def Site.primary (site : Site) : Path := site.matrixDir ++ [credentialsFilename]

/-- The candidate of an explicit path, which may name a directory. -/
def explicitCandidate (d : Disk) (e : Explicit) : Path :=
  if d.dirs e.path then e.path ++ [credentialsFilename] else e.path

/-- `_add` of `get_credentials_search_paths`. -/
def addPath (paths : List Path) (p : Path) : List Path :=
  if paths.contains p then paths else paths ++ [p]

/-- `get_credentials_search_paths`. -/
def getCredentialsSearchPaths (site : Site) (d : Disk) : List Path :=
  ((site.explicit.map (explicitCandidate d)).toList ++ site.primary :: site.others).foldl addPath []

/-! ## Loading and saving -/

/-- What `str.strip` leaves of a string, when that is not empty: `_get_valid_device_id`, and each
value of `_first_nonblank_str`. -/
def nonBlank : Py → Option String
  | .str s => if strip s = "" then none else some (strip s)
  | _ => none

/-- `REQUIRED_CREDENTIALS_KEYS`. -/
def requiredCredentialsKeys : List String := ["homeserver", "access_token"]

/-- The credentials as they are used: an invalid device is null. -/
def withDevice (kvs : List (String × Py)) : List (String × Py) :=
  if (nonBlank ((Py.dict kvs).field "device_id")).isSome then kvs else dictSet kvs "device_id" .none

def hasRequired (kvs : List (String × Py)) : Bool :=
  requiredCredentialsKeys.all fun key => (nonBlank ((Py.dict kvs).field key)).isSome

/-- A turn of the loop of `load_credentials`: whether the loop ends there, and with what. -/
def readCredentials : Option Content → Option (Option (List (String × Py)))
  | some (.value (.dict kvs)) => if hasRequired kvs then some (some (withDevice kvs)) else none
  | some .raises => some none
  | _ => none

/-- `load_credentials`; where it raises there are no credentials either. -/
def loadCredentials (site : Site) (d : Disk) : Option (List (String × Py)) :=
  ((getCredentialsSearchPaths site d).findSome? fun p => readCredentials (d.files p)).join

/-- How far `save_credentials` gets. -/
inductive Outcome
  | noDirectory
  | notOpened
  /-- The file is truncated, and its value is not written to the end. -/
  | torn
  | complete
  deriving DecidableEq

/-- The directory and the name of the file that is written. -/
def saveTarget (site : Site) (d : Disk) : Path × String :=
  match site.explicit with
  | some e => if d.dirs e.path || e.trailing then (e.path, credentialsFilename) else (e.dir, e.name)
  | none =>
    if d.dirs site.primary then (site.primary, credentialsFilename)
    else (site.matrixDir, credentialsFilename)

/-- `save_credentials` to the place that `_resolve_credentials_save_path` gives; false when it
raises. -/
def saveCredentials (site : Site) (d : Disk) (kvs : List (String × Py)) (outcome : Outcome) :
    Disk × Bool :=
  let target := saveTarget site d
  match if outcome = .noDirectory then none else d.makedirs target.1 with
  | none => (d, false)
  | some d' =>
    let content := if outcome = .complete then .value (.dict kvs) else .refused
    match if outcome = .notOpened then none else d'.write target.1 target.2 content with
    | none => (d', false)
    | some d'' => (d'', decide (outcome = .complete))

/-- The removal of the credentials in `_cleanup_local_session_data`. -/
def removeCredentials (site : Site) (d : Disk) : Disk := d.remove site.primary

/-! ## What is loaded -/

section Search

variable {β : Type} {f : Path → Option β}

/-- A place that is listed twice is looked at in vain the second time. -/
theorem findSome?_addPath (paths : List Path) (p : Path) :
    (addPath paths p).findSome? f = (paths ++ [p]).findSome? f := by
  unfold addPath
  split_ifs with h
  · rw [List.findSome?_append]
    cases hf : paths.findSome? f with
    | some b => rfl
    | none =>
      have hp : f p = none := List.findSome?_eq_none_iff.mp hf p (List.contains_iff_mem.mp h)
      simp [hp]
  · rfl

theorem findSome?_addPaths (ps paths : List Path) :
    (ps.foldl addPath paths).findSome? f = (paths ++ ps).findSome? f := by
  induction ps generalizing paths with
  | nil => simp
  | cons p ps ih =>
    rw [List.foldl_cons, ih, List.findSome?_append, findSome?_addPath, ← List.findSome?_append,
      List.append_assoc, List.singleton_append]

theorem findSome?_filter (keep : Path → Bool) (paths : List Path) :
    (paths.filter keep).findSome? f = paths.findSome? fun p => if keep p then f p else none := by
  induction paths with
  | nil => rfl
  | cons p paths ih =>
    rw [List.filter_cons, List.findSome?_cons]
    cases keep p with
    | false => exact ih
    | true =>
      rw [if_pos rfl, if_pos rfl, List.findSome?_cons, ih]

end Search

variable {site : Site} {d d' : Disk} {kvs : List (String × Py)} {p : Path}

theorem loadCredentials_eq (site : Site) (d : Disk) : loadCredentials site d =
    ((site.explicit.bind fun e => readCredentials (d.files (explicitCandidate d e))).or
      ((site.primary :: site.others).findSome? fun p => readCredentials (d.files p))).join := by
  unfold loadCredentials getCredentialsSearchPaths
  rw [findSome?_addPaths, List.nil_append, List.findSome?_append]
  cases site.explicit with
  | none => rfl
  | some e => simp

/-! ## Saving -/

theorem makedirs_eq_some (h : d.makedirs p = some d') :
    d'.files = d.files ∧ ∀ q, d'.dirs q = (d.dirs q || q.isPrefixOf p) := by
  unfold Disk.makedirs at h
  split_ifs at h
  cases h
  exact ⟨rfl, fun _ => rfl⟩

theorem write_eq_some {dir : Path} {name : String} {content : Content}
    (h : d.write dir name content = some d') :
    d'.dirs = d.dirs ∧ ∀ q, d'.files q = if q = dir ++ [name] then some content else d.files q := by
  unfold Disk.write at h
  split_ifs at h
  cases h
  exact ⟨rfl, fun _ => rfl⟩

/-- New directories hide no credentials, and bring none. -/
theorem load_makedirs (h : d.makedirs p = some d') :
    loadCredentials site d' = loadCredentials site d := by
  obtain ⟨hfiles, hdirs⟩ := makedirs_eq_some h
  rw [loadCredentials_eq, loadCredentials_eq, hfiles]
  cases site.explicit with
  | none => rfl
  | some e =>
    have hsame : readCredentials (d.files (explicitCandidate d' e)) =
        readCredentials (d.files (explicitCandidate d e)) := by
      unfold explicitCandidate
      cases hnew : d'.dirs e.path with
      | false =>
        have hold : d.dirs e.path = false := by
          rw [hdirs, Bool.or_eq_false_iff] at hnew
          exact hnew.1
        rw [hold]
      | true =>
        cases hold : d.dirs e.path with
        | true => rfl
        | false =>
          -- where a directory was made, there was no file, and none below
          have hnone : d.files e.path = none := by
            by_contra hfile
            rw [← hfiles] at hfile
            rw [d'.apart _ hfile] at hnew
            cases hnew
          have hbelow : d.files (e.path ++ [credentialsFilename]) = none := by
            by_contra hfile
            rw [d.below _ _ hfile] at hold
            cases hold
          rw [if_pos rfl, if_neg Bool.false_ne_true, hnone, hbelow]
    rw [Option.bind_some, Option.bind_some, hsame]

/-- No directory stands in the place of the file, where no explicit path takes its place. -/
def Plain (site : Site) (d : Disk) : Prop := site.explicit.isSome = true ∨ d.dirs site.primary = false

/-- The place that is looked at first. -/
def firstPlace (site : Site) (d : Disk) : Path :=
  (site.explicit.map (explicitCandidate d)).getD site.primary

theorem load_of_firstPlace (h : readCredentials (d.files (firstPlace site d)) = some (some kvs)) :
    loadCredentials site d = some kvs := by
  rw [loadCredentials_eq]
  unfold firstPlace at h
  cases hexplicit : site.explicit with
  | none =>
    rw [hexplicit] at h
    rw [Option.bind_none, Option.none_or, List.findSome?_cons]
    rw [Option.map_none, Option.getD_none] at h
    rw [h]
    rfl
  | some e =>
    rw [hexplicit] at h
    rw [Option.bind_some]
    rw [Option.map_some, Option.getD_some] at h
    rw [h, Option.some_or]
    rfl

theorem firstPlace_saved (hplain : Plain site d) {d'' : Disk} {content : Content}
    (hmade : d.makedirs (saveTarget site d).1 = some d')
    (hwritten : d'.write (saveTarget site d).1 (saveTarget site d).2 content = some d'') :
    firstPlace site d'' = (saveTarget site d).1 ++ [(saveTarget site d).2] := by
  have hdirs := (makedirs_eq_some hmade).2
  have hkept := (write_eq_some hwritten).1
  unfold firstPlace
  cases hexplicit : site.explicit with
  | none =>
    have hfile : d.dirs site.primary = false := by
      rcases hplain with hsome | hfile
      · rw [hexplicit] at hsome
        cases hsome
      · exact hfile
    rw [Site.primary] at hfile
    simp [saveTarget, hexplicit, hfile, Site.primary]
  | some e =>
    have htarget : saveTarget site d =
        if d.dirs e.path || e.trailing then (e.path, credentialsFilename) else (e.dir, e.name) := by
      rw [saveTarget, hexplicit]
    rw [htarget] at hdirs ⊢
    rw [Option.map_some, Option.getD_some, explicitCandidate, hkept, hdirs]
    split_ifs at hdirs ⊢ with hdir hpre hpre
    · rfl
    · simp at hpre
    · -- a directory is not made where the file is to be
      rw [Bool.or_eq_true, List.isPrefixOf_iff_prefix] at hpre
      rcases hpre with hold | hlonger
      · simp [hold] at hdir
      · have hlen := hlonger.length_le
        simp [Explicit.path] at hlen
    · rfl

/-- What a save can do: nothing, make the directories, or write the file. -/
theorem save_cases (site : Site) (d : Disk) (kvs : List (String × Py)) (outcome : Outcome) :
    saveCredentials site d kvs outcome = (d, false) ∨
      ∃ d', d.makedirs (saveTarget site d).1 = some d' ∧
        (saveCredentials site d kvs outcome = (d', false) ∨
          ∃ d'', d'.write (saveTarget site d).1 (saveTarget site d).2
              (if outcome = .complete then .value (.dict kvs) else .refused) = some d'' ∧
            saveCredentials site d kvs outcome = (d'', decide (outcome = .complete)) ∧
            (outcome = .complete ∨ outcome = .torn)) := by
  unfold saveCredentials
  dsimp only
  cases hmade : if outcome = .noDirectory then none else d.makedirs (saveTarget site d).1 with
  | none => exact .inl rfl
  | some d' =>
    rw [Option.ite_none_left_eq_some] at hmade
    refine .inr ⟨d', hmade.2, ?_⟩
    dsimp only
    cases hwritten : if outcome = .notOpened then none else
        d'.write (saveTarget site d).1 (saveTarget site d).2
          (if outcome = .complete then .value (.dict kvs) else .refused) with
    | none => exact .inl rfl
    | some d'' =>
      rw [Option.ite_none_left_eq_some] at hwritten
      refine .inr ⟨d'', hwritten.2, rfl, ?_⟩
      cases outcome with
      | noDirectory => exact absurd rfl hmade.1
      | notOpened => exact absurd rfl hwritten.1
      | torn => exact .inr rfl
      | complete => exact .inl rfl

/-- **What has been saved is loaded.** -/
theorem load_saved (hplain : Plain site d) (hrequired : hasRequired kvs = true)
    (hsaved : (saveCredentials site d kvs .complete).2 = true) :
    loadCredentials site (saveCredentials site d kvs .complete).1 = some (withDevice kvs) := by
  rcases save_cases site d kvs .complete with
    hsave | ⟨d', hmade, hsave | ⟨d'', hwritten, hsave, -⟩⟩
  · rw [hsave] at hsaved
    cases hsaved
  · rw [hsave] at hsaved
    cases hsaved
  · rw [hsave]
    refine load_of_firstPlace ?_
    rw [firstPlace_saved hplain hmade hwritten, (write_eq_some hwritten).2, if_pos rfl]
    simp [readCredentials, hrequired]

theorem load_failed {outcome : Outcome} (htorn : outcome ≠ .torn)
    (hfailed : (saveCredentials site d kvs outcome).2 = false) :
    loadCredentials site (saveCredentials site d kvs outcome).1 = loadCredentials site d := by
  rcases save_cases site d kvs outcome with
    hsave | ⟨d', hmade, hsave | ⟨d'', -, hsave, rfl | rfl⟩⟩
  · rw [hsave]
  · rw [hsave]
    exact load_makedirs hmade
  · rw [hsave] at hfailed
    cases hfailed
  · exact absurd rfl htorn

theorem plain_makedirs (hplain : Plain site d)
    (hmade : d.makedirs (saveTarget site d).1 = some d') : Plain site d' := by
  cases hexplicit : site.explicit with
  | some e => exact .inl (by rw [hexplicit]; rfl)
  | none =>
    have hfile : d.dirs site.primary = false := by
      rcases hplain with hsome | hfile
      · rw [hexplicit] at hsome
        cases hsome
      · exact hfile
    refine .inr ?_
    rw [(makedirs_eq_some hmade).2, hfile, Bool.false_or, ← Bool.not_eq_true,
      List.isPrefixOf_iff_prefix]
    intro hpre
    have hlen := hpre.length_le
    rw [Site.primary] at hfile
    simp [saveTarget, hexplicit, hfile, Site.primary] at hlen

theorem plain_save (hplain : Plain site d) (kvs : List (String × Py)) (outcome : Outcome) :
    Plain site (saveCredentials site d kvs outcome).1 := by
  rcases save_cases site d kvs outcome with
    hsave | ⟨d', hmade, hsave | ⟨d'', hwritten, hsave, -⟩⟩
  · rw [hsave]
    exact hplain
  · rw [hsave]
    exact plain_makedirs hplain hmade
  · rw [hsave]
    rcases plain_makedirs hplain hmade with hsome | hfile
    · exact .inl hsome
    · refine .inr ?_
      show d''.dirs site.primary = false
      rw [(write_eq_some hwritten).1]
      exact hfile

/-- **After a logout** the session is the one that the other places hold. -/
theorem load_removed (site : Site) (d : Disk) :
    loadCredentials site (removeCredentials site d) =
      (((getCredentialsSearchPaths site d).filter (· ≠ site.primary)).findSome? fun p =>
        readCredentials (d.files p)).join := by
  have hsame : getCredentialsSearchPaths site (removeCredentials site d) =
      getCredentialsSearchPaths site d := rfl
  have hfiles (p : Path) : (removeCredentials site d).files p =
      if p = site.primary then none else d.files p := rfl
  unfold loadCredentials
  rw [hsame, findSome?_filter]
  congr 2
  funext p
  rw [hfiles]
  by_cases hprimary : p = site.primary
  · simp [hprimary, readCredentials]
  · simp [hprimary]

end MMRelay.Session
