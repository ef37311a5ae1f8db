import MMRelay.Lib.Run
import MMRelay.Loader.Repository

/-!
# Where community plugins are loaded from

The community plugins of `load_plugins` (`plugin_loader.py`) over a sequence of runs: each run
clones or updates the directory of every active entry, and then loads the plugins that are ready
from the first directory that has their name.

* `Search`, `loadEntry`: loading an entry;
* `State`, `Act`, `step`: the runs;
* `Intact`: every plugin comes from a working copy of its own repository;
* `Meets`: the directory that is updated is the entry's own, and no other one can be found;
* **`sources_intact`**: if all steps of the runs do so, `Intact` holds throughout;
* `sameName_mixed`: two hosts with a repository of one name.
-/

namespace MMRelay.Loader.Checkout

/-! ## Loading -/

/-- What loading an entry meets. -/
structure Search where
  /-- The directories after the community plugin directory. -/
  others : List Content
  /-- Loading from the directory at this place raises. -/
  raises : ℕ → Bool

/-- A plugin that was loaded, with the repository of its entry. -/
structure Loaded where
  repository : Text
  /-- The place of the directory in the search, 0 for the community plugin directory. -/
  place : ℕ
  name : Text
  found : Dir
  deriving DecidableEq

/-- The loop over the directories: the first one that has the name and does not raise. -/
def findPlugin (raises : ℕ → Bool) (name : Text) : ℕ → List Content → Option (ℕ × Dir)
  | _, [] => none
  | place, c :: cs =>
    match c name with
    | none => findPlugin raises name (place + 1) cs
    | some d =>
      if isPathContained c name && !raises place then some (place, d)
      else findPlugin raises name (place + 1) cs

/-- The body of the loop over the plugins that are ready. -/
def loadEntry (content : Content) (search : Search) (info : Py) : Option Loaded :=
  match request? info with
  | none => none
  | some (url, _) =>
    match repoNameFromUrl url with
    | none => none
    | some name =>
      if isSafePluginName name then
        -- what is not a directory has no plugins
        match findPlugin search.raises name 0 (content :: search.others) with
        | some (place, d) => if d.isBelow then some ⟨url, place, name, d⟩ else none
        | none => none
      else none

/-! ## Runs -/

/-- The state of the loader; a run is over when nothing is pending and nothing is ready. -/
structure State where
  content : Content
  /-- There is a community plugin directory. -/
  accessible : Bool
  pending : List Py
  ready : List Py
  loaded : List Loaded

/-- The steps of the runs; `raise` ends a run early. -/
inductive Act
  | start (config : List Py) (accessible : Bool)
  | sync (env : SyncEnv)
  | load (search : Search)
  | raise

/-- Nothing has been loaded yet. -/
def initial (content : Content) : State := ⟨content, false, [], [], []⟩

/-- One step of `load_plugins`. -/
def step (s : State) : Act → Option State
  | .start config accessible =>
    if s.pending.isEmpty && s.ready.isEmpty then
      some { s with pending := config, accessible := accessible }
    else none
  | .sync env =>
    match s.pending with
    | [] => none
    | info :: rest =>
      let r := if s.accessible then syncEntry env s.content info else (s.content, false)
      some { s with
        content := r.1
        pending := rest
        ready := if r.2 then s.ready ++ [info] else s.ready }
  | .load search =>
    match s.pending, s.ready with
    | [], info :: rest =>
      some { s with
        ready := rest
        loaded := s.loaded ++ (loadEntry s.content search info).toList }
    | _, _ => none
  | .raise => some { s with pending := [], ready := [] }

/-! ## The property and the condition -/

/-- The plugin comes from the community plugin directory, from the name at which its repository is
cloned and from a working copy of that repository. -/
def Loaded.IsOwn (l : Loaded) : Prop :=
  l.place = 0 ∧ repoNameFromUrl (stripChars l.repository) = some l.name ∧
    l.found = .checkout (some (stripChars l.repository))

/-- All plugins come from working copies of their own, and plugins from the same directory are of
the same repository. -/
def Intact (s : State) : Prop :=
  (∀ l ∈ s.loaded, l.IsOwn) ∧
    ∀ l ∈ s.loaded, ∀ m ∈ s.loaded, l.place = m.place → l.name = m.name →
      stripChars l.repository = stripChars m.repository

/-- None of the directories has a directory of this name. -/
def Lack (dirs : List Content) (name : Text) : Prop :=
  ∀ c ∈ dirs, ∀ d ∈ c name, d.isBelow = false

/-- The name that is searched is the one at which the repository was cloned, or nothing has it, and
nothing else has it if loading from the community plugin directory raises. -/
def FindsOwn (content : Content) (search : Search) (info : Py) : Prop :=
  ∀ r ∈ request? info, ∀ name ∈ repoNameFromUrl r.1,
    (repoNameFromUrl (stripChars r.1) = some name ∨ Lack (content :: search.others) name) ∧
      (search.raises 0 = true → Lack search.others name)

/-- The step does not take the directory of another repository for the entry's own. -/
def Meets (s : State) : Act → Prop
  | .sync env => ∀ info ∈ s.pending.head?, s.accessible = true → UpdatesOwn env s.content info
  | .load search => ∀ info ∈ s.ready.head?, FindsOwn s.content search info
  | _ => True

instance (dirs : List Content) (name : Text) : Decidable (Lack dirs name) := by
  unfold Lack
  infer_instance

instance (content : Content) (search : Search) (info : Py) :
    Decidable (FindsOwn content search info) := by
  unfold FindsOwn
  infer_instance

instance decidableMeets : ∀ (s : State) (a : Act), Decidable (Meets s a)
  | s, .sync env =>
    inferInstanceAs (Decidable (∀ info ∈ s.pending.head?, s.accessible = true →
      UpdatesOwn env s.content info))
  | s, .load search =>
    inferInstanceAs (Decidable (∀ info ∈ s.ready.head?, FindsOwn s.content search info))
  | _, .start _ _ => isTrue trivial
  | _, .raise => isTrue trivial

/-! ## One step -/

theorem findPlugin_of_lack {raises : ℕ → Bool} {name : Text} {dirs : List Content} {place k : ℕ}
    {d : Dir} (h : Lack dirs name) (hfind : findPlugin raises name place dirs = some (k, d)) :
    d.isBelow = false := by
  induction dirs generalizing place with
  | nil => cases hfind
  | cons c cs ih =>
    have hcs : Lack cs name := fun c' hc' => h c' (List.mem_cons_of_mem c hc')
    unfold findPlugin at hfind
    cases hc : c name with
    | none =>
      rw [hc] at hfind
      exact ih hcs hfind
    | some e =>
      rw [hc] at hfind
      dsimp only at hfind
      split_ifs at hfind
      · cases hfind
        exact h c List.mem_cons_self d hc
      · exact ih hcs hfind

theorem isOwn_of_loadEntry {content : Content} {search : Search} {info : Py} {l : Loaded}
    (hplaced : Placed content info) (hfinds : FindsOwn content search info)
    (h : loadEntry content search info = some l) :
    l.IsOwn ∧ content l.name = some l.found := by
  obtain ⟨url, ref, name, hr, hname, hdot, hdir⟩ := hplaced
  unfold loadEntry at h
  rw [hr] at h
  dsimp only at h
  cases hraw : repoNameFromUrl url with
  | none =>
    rw [hraw] at h
    cases h
  | some raw =>
    rw [hraw] at h
    dsimp only at h
    obtain ⟨hsame, hothers⟩ := hfinds (url, ref) hr raw hraw
    dsimp only at hsame
    split_ifs at h with hsafe
    cases hfind : findPlugin search.raises raw 0 (content :: search.others) with
    | none =>
      rw [hfind] at h
      cases h
    | some r =>
      obtain ⟨place, d⟩ := r
      rw [hfind] at h
      dsimp only at h
      split_ifs at h with hbelow
      cases h
      obtain hsame | hlack := hsame
      · -- the name is the one of the working copy, which is the first that is found
        have heq : raw = name := Option.some.inj (hsame.symm.trans hname)
        subst heq
        have hcont : isPathContained content raw = true := by
          unfold isPathContained
          rw [hdir, Bool.and_eq_true, decide_eq_true_eq, decide_eq_true_eq]
          refine ⟨hdot, fun hc => ?_⟩
          cases hc
        unfold findPlugin at hfind
        rw [hdir] at hfind
        dsimp only at hfind
        rw [hcont, Bool.true_and] at hfind
        split_ifs at hfind with hraises
        · cases hfind
          exact ⟨⟨rfl, hname, rfl⟩, hdir⟩
        · have hraises' : search.raises 0 = true := by
            rwa [Bool.not_eq_true', Bool.not_eq_false] at hraises
          rw [findPlugin_of_lack (hothers hraises') hfind] at hbelow
          cases hbelow
      · rw [findPlugin_of_lack hlack hfind] at hbelow
        cases hbelow

/-- What is ready has its directory, and what was loaded came from a working copy of its own that
is still there. -/
structure Inv (s : State) : Prop where
  ready : ∀ info ∈ s.ready, Placed s.content info
  own : ∀ l ∈ s.loaded, l.IsOwn ∧ s.content l.name = some l.found

namespace Inv

variable {s s' : State} {a : Act}

theorem intact (h : Inv s) : Intact s := by
  refine ⟨fun l hl => (h.own l hl).1, fun l hl m hm _ hname => ?_⟩
  obtain ⟨⟨-, -, hfl⟩, hcl⟩ := h.own l hl
  obtain ⟨⟨-, -, hfm⟩, hcm⟩ := h.own m hm
  -- both are the working copy that has the name now
  have hfound : l.found = m.found := by
    apply Option.some.inj
    rw [← hcl, ← hcm, hname]
  rw [hfl, hfm] at hfound
  exact Option.some.inj (Dir.checkout.inj hfound)

theorem initial (content : Content) : Inv (initial content) where
  ready _ h := by cases h
  own _ h := by cases h

theorem sync {env : SyncEnv} (h : Inv s) (hmeets : Meets s (.sync env))
    (hs : step s (.sync env) = some s') : Inv s' := by
  unfold step at hs
  cases hp : s.pending with
  | nil =>
    rw [hp] at hs
    cases hs
  | cons info rest =>
    rw [hp] at hs
    dsimp only at hs
    have hown := hmeets info (by rw [hp]; rfl)
    cases ha : s.accessible with
    | false =>
      rw [ha] at hs
      cases hs
      exact ⟨h.ready, h.own⟩
    | true =>
      rw [ha, if_pos rfl] at hs
      cases hs
      constructor
      · intro info' hinfo'
        dsimp only at hinfo'
        split_ifs at hinfo' with hok
        · obtain hin | heq := List.mem_append.mp hinfo'
          · exact placed_of_syncEntry (h.ready info' hin) env info
          · rw [List.mem_singleton.mp heq]
            exact (placed_of_sync_iff hok).mpr (hown ha)
        · exact placed_of_syncEntry (h.ready info' hinfo') env info
      · intro l hl
        obtain ⟨hl, hdir⟩ := h.own l hl
        refine ⟨hl, ?_⟩
        rw [hl.2.2] at hdir ⊢
        exact syncEntry_of_checkout hdir

theorem load {search : Search} (h : Inv s) (hmeets : Meets s (.load search))
    (hs : step s (.load search) = some s') : Inv s' := by
  unfold step at hs
  dsimp only at hs
  split at hs
  · next info rest hp hr =>
    cases hs
    have hfinds := hmeets info (by rw [hr]; rfl)
    have hplaced : Placed s.content info := h.ready info (by rw [hr]; exact List.mem_cons_self)
    constructor
    · intro info' hinfo'
      apply h.ready
      rw [hr]
      exact List.mem_cons_of_mem info hinfo'
    · intro l hl
      obtain hin | hnew := List.mem_append.mp hl
      · exact h.own l hin
      · exact isOwn_of_loadEntry hplaced hfinds (Option.mem_toList.mp hnew)
  · cases hs

theorem step (h : Inv s) (hmeets : Meets s a) (hs : step s a = some s') : Inv s' := by
  cases a with
  | start config accessible =>
    unfold Checkout.step at hs
    dsimp only at hs
    split_ifs at hs
    cases hs
    exact ⟨h.ready, h.own⟩
  | sync env => exact h.sync hmeets hs
  | load search => exact h.load hmeets hs
  | raise =>
    cases hs
    refine ⟨fun info hinfo => ?_, h.own⟩
    cases hinfo

end Inv

/-! ## The runs -/

/-- **The sources of community plugins.** Whatever the community plugin directory holds at first,
and whatever the configurations and git do, if no step takes the directory of another repository
for the entry's own, all plugins ever loaded come from working copies of their own. -/
theorem sources_intact (content : Content) (acts : List Act)
    (h : AllSteps step Meets (initial content) acts) :
    Visited step Intact (initial content) acts :=
  visited_of_invariant (fun _ _ _ hs hmeets hstep => hs.step hmeets hstep)
    (fun _ hs => hs.intact) (Inv.initial content) h

/-- An active entry with this repository and a branch. -/
def entry (url : String) : Py :=
  .dict [("active", .bool true), ("repository", .str url), ("branch", .str "main")]

/-- Every repository can be cloned and updated. -/
def online : SyncEnv := ⟨fun _ => true, true, fun _ => .cloned .yes⟩

/-- Nothing raises, and there is no other directory. -/
def onlyHere : Search := ⟨[], fun _ => false⟩

/-- Two runs; the second one has another entry and updates the first one's directory. -/
def twoRuns : List Act :=
  [.start [entry "https://github.com/owner/plug.git"] true, .sync online, .load onlyHere,
    .start [entry "https://github.com/owner/plug.git ", entry "https://gitlab.com/owner/other"] true,
    .sync online, .sync online, .load onlyHere, .load onlyHere]

theorem sources_intact_twoRuns : Visited step Intact (initial fun _ => none) twoRuns :=
  sources_intact (fun _ => none) twoRuns (by decide +kernel)

/-- Two entries whose repositories have the same name on different hosts. -/
def sameName : List Act :=
  [.start [entry "https://github.com/owner/plug", entry "https://gitlab.com/other/plug"] true,
    .sync online, .sync online, .load onlyHere, .load onlyHere]

/-- The plugin of the second entry is loaded from the working copy of the first one. -/
theorem sameName_mixed : ¬ Visited step Intact (initial fun _ => none) sameName := by
  intro hv
  have hrun : (runActs step (initial fun _ => none) sameName).map State.loaded = some
      [⟨"https://github.com/owner/plug".toList, 0, "plug".toList,
          .checkout (some "https://github.com/owner/plug".toList)⟩,
        ⟨"https://gitlab.com/other/plug".toList, 0, "plug".toList,
          .checkout (some "https://github.com/owner/plug".toList)⟩] := by
    decide +kernel
  obtain ⟨t, ht, hloaded⟩ := Option.map_eq_some_iff.mp hrun
  have hmem : (⟨"https://gitlab.com/other/plug".toList, 0, "plug".toList,
      .checkout (some "https://github.com/owner/plug".toList)⟩ : Loaded) ∈ t.loaded := by
    rw [hloaded]
    exact List.mem_cons_of_mem _ List.mem_cons_self
  obtain ⟨-, -, hfound⟩ := (hv.last ht).1 _ hmem
  exact absurd hfound (by decide +kernel)

end MMRelay.Loader.Checkout
