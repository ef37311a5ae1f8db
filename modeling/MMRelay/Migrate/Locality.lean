import MMRelay.Migrate.Plan

/-!
# What a decision depends on

The paths that a step looks at before it acts: its decision is the same in file systems that agree
there.

* `InDir`, `dirHasEntries_congr`: a directory and its entries;
* `Looks`, **`plan_congr`**: the paths of a step;
* `gpxPlan_congr`: the decision about tracks, from parts of what it looks at.
-/

namespace MMRelay.Migrate

open FileOps

/-- A directory or an entry of it. -/
def InDir (dir q : Path) : Prop := q = dir ∨ ∃ n, q = dir ++ [n]

theorem InDir.below {dir p q : Path} (h : InDir dir q) (hp : p <+: dir) : p <+: q := by
  obtain rfl | ⟨n, rfl⟩ := h
  · exact hp
  · exact hp.trans (List.prefix_append _ _)

/-- The database of a root, in all places, and the directories of these places. -/
def DbPlace (root q : Path) : Prop :=
  q = root ++ ["data"] ∨ q = root ++ ["database"] ∨
    ∃ n ∈ dbNames, q = root ++ [n] ∨ q = root ++ ["data", n] ∨ q = root ++ ["database", n]

section Looks

variable (w : World) (roots : List Path) (fs : Fs)

/-- The path is a directory of tracks in a configuration of the roots. -/
def NamedGpxDir (config : Path → Option Node) (q : Path) : Prop :=
  ∃ root ∈ w.rootsToScan roots, ∃ c m, config root = some (.file c m) ∧
    w.gpxDirectory c = .directory q

/-- What a step looks at. -/
def Looks : Step → Path → Prop
  | .credentials => fun q =>
    q = w.newCreds ∨ q = w.homeDir ++ [credentialsFilename] ∨
      ∃ root ∈ w.rootsToScan roots, q = root ++ [credentialsFilename]
  | .config => fun q => q = w.newConfig ∨ ∃ root ∈ roots, q = root ++ [configFilename]
  | .database => fun q => q = w.newDb ∨ ∃ root ∈ roots, DbPlace root q
  | .logs => fun q => InDir w.newLogsDir q ∨ ∃ root ∈ roots, q = root ++ ["logs"]
  | .store => fun q =>
    InDir w.newStoreDir q ∨ ∃ root ∈ w.rootsToScan roots, q = root ++ [storeDirname]
  | .plugins => fun q =>
    InDir w.newPluginsDir q ∨
      (∃ tier ∈ ["custom", "community", "core"], InDir (w.newPluginsDir ++ [tier]) q) ∨
      ∃ root ∈ roots, q = root ++ ["plugins"]
  | .gpxtracker => fun q =>
    InDir w.newGpxDataDir q ∨ (∃ root ∈ w.rootsToScan roots, q = root ++ [configFilename]) ∨
      NamedGpxDir w roots (fun root => fs.node (root ++ [configFilename])) q
  | .service => fun q => q = w.servicePath

end Looks

variable {w : World} {roots : List Path} {fs fs' : Fs}

/-! ## The parts of the decisions -/

theorem children_isEmpty {p : Path} :
    (fs.children p).isEmpty = true ↔ ∀ n, fs.node (p ++ [n]) = none := by
  rw [List.isEmpty_iff, List.eq_nil_iff_forall_not_mem]
  exact forall_congr' fun n => by rw [Fs.mem_children, not_not]

theorem dirHasEntries_iff {p : Path} :
    dirHasEntries fs p = true ↔ fs.node p = some .dir ∧ ∃ n, fs.node (p ++ [n]) ≠ none := by
  unfold dirHasEntries Fs.isDir
  rw [Bool.and_eq_true, decide_eq_true_eq, Bool.not_eq_true', Bool.eq_false_iff, ne_eq,
    children_isEmpty, not_forall]

theorem dirHasEntries_congr {p : Path} (h : ∀ q, InDir p q → fs'.node q = fs.node q) :
    dirHasEntries fs' p = dirHasEntries fs p := by
  rw [Bool.eq_iff_iff, dirHasEntries_iff, dirHasEntries_iff, h p (Or.inl rfl)]
  refine and_congr_right fun _ => exists_congr fun n => ?_
  rw [h _ (Or.inr ⟨n, rfl⟩)]

theorem scanRoots_congr {target : Path} {name : String} {present present' : Path → Bool}
    {rs : List Path} (hex : ∀ root ∈ rs, fs'.node (root ++ [name]) = fs.node (root ++ [name]))
    (hpresent : present' target = present target) :
    scanRoots fs' target name present' rs = scanRoots fs target name present rs := by
  induction rs with
  | nil => rfl
  | cons root rest ih =>
    have hrest := ih fun r hr => hex r (List.mem_cons_of_mem _ hr)
    unfold scanRoots
    simp only
    by_cases hat : root ++ [name] = target
    · rw [if_pos hat, if_pos hat, hat, hpresent, hrest]
    · rw [if_neg hat, if_neg hat, pathExists_congr (hex root List.mem_cons_self), hrest]

theorem firstWith_congr {name : String} {rs : List Path}
    (h : ∀ root ∈ rs, fs'.node (root ++ [name]) = fs.node (root ++ [name])) :
    firstWith fs' name rs = firstWith fs name rs := by
  unfold firstWith
  induction rs with
  | nil => rfl
  | cons root rest ih =>
    have hrest := ih fun r hr => h r (List.mem_cons_of_mem _ hr)
    rw [List.find?_cons, List.find?_cons, pathExists_congr (h root List.mem_cons_self)]
    split
    · rfl
    · exact hrest

theorem homeCredentials_congr
    (h : fs'.node (w.homeDir ++ [credentialsFilename]) =
      fs.node (w.homeDir ++ [credentialsFilename])) :
    homeCredentials w fs' = homeCredentials w fs := by
  unfold homeCredentials
  simp only [h]

/-! ## The database -/

theorem dbWithSidecars_congr {dir : Path}
    (h : ∀ n ∈ dbNames, fs'.node (dir ++ [n]) = fs.node (dir ++ [n])) :
    dbWithSidecars fs' (dir ++ [databaseFilename]) =
      dbWithSidecars fs (dir ++ [databaseFilename]) := by
  unfold dbWithSidecars
  rw [pathExists_congr (h _ List.mem_cons_self), collectDbSidecars_congr h]

theorem rootCandidates_congr {single : Bool} {root : Path}
    (h : ∀ q, DbPlace root q → fs'.node q = fs.node q) :
    rootCandidates w fs' single root = rootCandidates w fs single root := by
  have hroot : ∀ n ∈ dbNames, fs'.node (root ++ [n]) = fs.node (root ++ [n]) :=
    fun n hn => h _ (Or.inr (Or.inr ⟨n, hn, Or.inl rfl⟩))
  have hdata : ∀ n ∈ dbNames, fs'.node (root ++ ["data"] ++ [n]) =
      fs.node (root ++ ["data"] ++ [n]) :=
    fun n hn => h _ (Or.inr (Or.inr ⟨n, hn, Or.inr (Or.inl (by simp))⟩))
  have hdatabase : ∀ n ∈ dbNames, fs'.node (root ++ ["database"] ++ [n]) =
      fs.node (root ++ ["database"] ++ [n]) :=
    fun n hn => h _ (Or.inr (Or.inr ⟨n, hn, Or.inr (Or.inr (by simp))⟩))
  have heq (sub : String) : root ++ [sub, databaseFilename] =
      root ++ [sub] ++ [databaseFilename] := by simp
  unfold rootCandidates
  simp only [heq]
  rw [pathExists_congr (hroot _ List.mem_cons_self), dbWithSidecars_congr hroot,
    dbWithSidecars_congr hdata, dbWithSidecars_congr hdatabase,
    pathExists_congr (h _ (Or.inl rfl)), pathExists_congr (h _ (Or.inr (Or.inl rfl))),
    pathExists_congr (hdatabase _ List.mem_cons_self)]

theorem databaseCandidates_congr {single : Bool} {rs : List Path}
    (h : ∀ root ∈ rs, ∀ q, DbPlace root q → fs'.node q = fs.node q) :
    databaseCandidates w fs' single rs = databaseCandidates w fs single rs := by
  induction rs with
  | nil => rfl
  | cons root rest ih =>
    unfold databaseCandidates
    rw [rootCandidates_congr (h root List.mem_cons_self),
      ih fun r hr => h r (List.mem_cons_of_mem _ hr)]

/-! ## Tracks -/

section Gpx

variable {config config' : Path → Option Node} {there there' : Path → Bool} {filled : Bool}

theorem gpxDir_congr {rs : List Path} (hconfig : ∀ root ∈ rs, config' root = config root)
    (hthere : ∀ root ∈ rs, ∀ c m p, config root = some (.file c m) →
      w.gpxDirectory c = .directory p → there' p = there p) (last : Option Path) :
    gpxDir w config' there' last rs = gpxDir w config there last rs := by
  induction rs generalizing last with
  | nil => rfl
  | cons root rest ih =>
    have hrest := ih (fun r hr => hconfig r (List.mem_cons_of_mem _ hr))
      fun r hr => hthere r (List.mem_cons_of_mem _ hr)
    have hhere := hthere root List.mem_cons_self
    unfold gpxDir
    simp only [hrest, hconfig root List.mem_cons_self]
    split
    · split
      · next c m hfile =>
        split
        · rfl
        · next p hp => rw [hhere c m p hfile hp]
        · rfl
        · rfl
      · rfl
    · rfl

theorem gpxDir_named {rs : List Path} {last : Option Path} {p : Path}
    (h : gpxDir w config there last rs = .ok (some p)) :
    last = some p ∨ ∃ root ∈ rs, ∃ c m, config root = some (.file c m) ∧
      w.gpxDirectory c = .directory p := by
  induction rs generalizing last with
  | nil =>
    cases h
    exact Or.inl rfl
  | cons root rest ih =>
    have hlater {last' : Option Path} (hrest : gpxDir w config there last' rest = .ok (some p)) :
        last' = some p ∨ ∃ r ∈ root :: rest, ∃ c m, config r = some (.file c m) ∧
          w.gpxDirectory c = .directory p := by
      rcases ih hrest with heq | ⟨r, hr, hnamed⟩
      · exact Or.inl heq
      · exact Or.inr ⟨r, List.mem_cons_of_mem _ hr, hnamed⟩
    unfold gpxDir at h
    split at h
    · split at h
      · next c m hfile =>
        split at h
        · exact hlater h
        · next p' hp' =>
          have hnamed : p' = p → ∃ r ∈ root :: rest, ∃ c m, config r = some (.file c m) ∧
              w.gpxDirectory c = .directory p := by
            rintro rfl
            exact ⟨root, List.mem_cons_self, c, m, hfile, hp'⟩
          split at h
          · cases h
            exact Or.inr (hnamed rfl)
          · rcases hlater h with heq | hlater
            · exact Or.inr (hnamed (Option.some.inj heq))
            · exact Or.inr hlater
        · exact hlater h
        · cases h
      · exact hlater h
    · exact hlater h

/-- The decision about tracks depends on the configurations of the roots, the existence of the
directories that they name, and the entries of the destination. -/
theorem gpxPlan_congr (hconfig : ∀ root ∈ w.rootsToScan roots, config' root = config root)
    (hthere : ∀ p, NamedGpxDir w roots config p → there' p = there p) :
    gpxPlan w roots config' there' filled = gpxPlan w roots config there filled := by
  unfold gpxPlan
  rw [gpxDir_congr hconfig fun root hr c m p hfile hp => hthere p ⟨root, hr, c, m, hfile, hp⟩]
  cases hfound : gpxDir w config there none (w.rootsToScan roots) with
  | error e => rfl
  | ok found =>
    cases found with
    | none => rfl
    | some old =>
      have hold : there' old = there old := by
        rcases gpxDir_named hfound with hnone | ⟨root, hr, c, m, hfile, hp⟩
        · cases hnone
        · exact hthere old ⟨root, hr, c, m, hfile, hp⟩
      simp only [hold]

end Gpx

/-! ## The decisions -/

/-- The steps decide on what they look at; the service step also asks its parameter. -/
theorem plan_congr {step : Step} (h : ∀ q, Looks w roots fs step q → fs'.node q = fs.node q)
    (hservice : step = .service → w.serviceNeedsUpdate fs' = w.serviceNeedsUpdate fs) :
    plan w roots fs' step = plan w roots fs step := by
  cases step with
  | credentials =>
    show planCredentials w roots fs' = planCredentials w roots fs
    have hdest := pathExists_congr (h _ (Or.inl rfl))
    unfold planCredentials
    rw [scanRoots_congr (fun root hr => h _ (Or.inr (Or.inr ⟨root, hr, rfl⟩))) hdest, hdest,
      homeCredentials_congr (h _ (Or.inr (Or.inl rfl)))]
  | config =>
    show planConfig w roots fs' = planConfig w roots fs
    have hdest := pathExists_congr (h _ (Or.inl rfl))
    unfold planConfig
    rw [scanRoots_congr (fun root hr => h _ (Or.inr ⟨root, hr, rfl⟩)) hdest, hdest]
  | database =>
    show planDatabase w roots fs' = planDatabase w roots fs
    unfold planDatabase
    rw [databaseCandidates_congr fun root hr q hq => h q (Or.inr ⟨root, hr, hq⟩),
      pathExists_congr (h _ (Or.inl rfl))]
  | logs =>
    show planLogs w roots fs' = planLogs w roots fs
    have hdest : dirHasEntries fs' w.newLogsDir = dirHasEntries fs w.newLogsDir :=
      dirHasEntries_congr fun q hq => h q (Or.inl hq)
    unfold planLogs
    rw [firstWith_congr fun root hr => h _ (Or.inr ⟨root, hr, rfl⟩), hdest]
    cases firstWith fs "logs" roots with
    | none => rfl
    | some old =>
      have hiff : old = w.newLogsDir ∧ dirHasEntries fs' old = true ↔
          old = w.newLogsDir ∧ dirHasEntries fs old = true :=
        and_congr_right fun heq => by rw [heq, hdest]
      simp only [hiff]
  | store =>
    show planStore w roots fs' = planStore w roots fs
    have hdest : dirHasEntries fs' w.newStoreDir = dirHasEntries fs w.newStoreDir :=
      dirHasEntries_congr fun q hq => h q (Or.inl hq)
    unfold planStore
    rw [scanRoots_congr (fun root hr => h _ (Or.inr ⟨root, hr, rfl⟩)) hdest, hdest]
  | plugins =>
    show planPlugins w roots fs' = planPlugins w roots fs
    have hdest : dirHasEntries fs' w.newPluginsDir = dirHasEntries fs w.newPluginsDir :=
      dirHasEntries_congr fun q hq => h q (Or.inl hq)
    have hcontent : hasPluginContent w fs' = hasPluginContent w fs := by
      unfold hasPluginContent
      rw [Bool.eq_iff_iff, List.any_eq_true, List.any_eq_true]
      refine exists_congr fun tier => and_congr_right fun htier => ?_
      rw [dirHasEntries_congr fun q hq => h q (Or.inr (Or.inl ⟨tier, htier, hq⟩))]
    unfold planPlugins
    rw [firstWith_congr fun root hr => h _ (Or.inr (Or.inr ⟨root, hr, rfl⟩)), hdest, hcontent]
    cases firstWith fs "plugins" roots with
    | none => rfl
    | some old =>
      have hiff : old = w.newPluginsDir ∧ dirHasEntries fs' old = true ↔
          old = w.newPluginsDir ∧ dirHasEntries fs old = true :=
        and_congr_right fun heq => by rw [heq, hdest]
      simp only [hiff]
  | gpxtracker =>
    show planGpxtracker w roots fs' = planGpxtracker w roots fs
    unfold planGpxtracker
    rw [dirHasEntries_congr fun q hq => h q (Or.inl hq)]
    exact gpxPlan_congr (fun root hr => h _ (Or.inr (Or.inl ⟨root, hr, rfl⟩)))
      fun p hp => pathExists_congr (h p (Or.inr (Or.inr hp)))
  | service =>
    show planService w fs' = planService w fs
    unfold planService
    rw [pathExists_congr (h _ rfl), hservice rfl]

end MMRelay.Migrate
