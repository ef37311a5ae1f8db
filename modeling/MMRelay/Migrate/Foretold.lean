import MMRelay.Lib.Trees
import MMRelay.Migrate.Locality

/-!
# What a dry run foretells

A dry run reports the decisions that the steps make on the file system as it is. In a real run
each step decides on what the earlier ones have left; where they do not reach what it looks at, it
reports what was foretold.

* `Records`, `Recorded`, `runSteps_recorded`: the records of steps that run one after the other;
* `forecast`, `Ready`, `dryRun_reports`: a dry run reports the forecast and changes nothing;
* `Disturbed`, `InTurn`: what the forecast says that the steps change, and steps that do not look
  at what the ones before them change;
* **`realRun_follows`**: real runs, with whatever faults;
* `World.dry`, **`dryRun_foretells`**, **`dryRun_predicts`**: the two compared.
-/

namespace MMRelay.Migrate

open FileOps

variable {w : World} {roots : List Path} {s s' : Machine} {step : Step} {r : StepResult}

/-! ## Records -/

/-- The result that is recorded of a step; an exception leaves one without success. -/
def Records (run : Run Machine Event Err StepResult) (r : StepResult) : Prop :=
  match run.result with
  | .ok r' => r = r'
  | .error _ => r.success = false

/-- The records of steps that run one after the other, from a state to a state. -/
inductive Recorded (w : World) (roots : List Path) :
    Machine → List (Step × StepResult) → Machine → Prop
  | nil (s : Machine) : Recorded w roots s [] s
  | cons {s s' : Machine} {step : Step} {r : StepResult} {rest : List (Step × StepResult)}
      (h : Records (migrate w roots step s) r)
      (hrest : Recorded w roots (migrate w roots step s).state rest s') :
      Recorded w roots s ((step, r) :: rest) s'

theorem Records.ok (h : Records (migrate w roots step s) r) (hsuccess : r.success = true) :
    (migrate w roots step s).result = .ok r := by
  unfold Records at h
  split at h
  · next r' hr' => rw [hr', h]
  · rw [h] at hsuccess
    cases hsuccess

theorem Recorded.split {before after : List (Step × StepResult)}
    (h : Recorded w roots s (before ++ after) s') :
    ∃ m, Recorded w roots s before m ∧ Recorded w roots m after s' := by
  induction before generalizing s with
  | nil => exact ⟨s, .nil s, h⟩
  | cons record rest ih =>
    cases h with
    | cons hrecords hrest =>
      obtain ⟨m, hbefore, hafter⟩ := ih hrest
      exact ⟨m, .cons hrecords hbefore, hafter⟩

/-- What `_run_step` and the steps after it do with the result of a step. -/
def afterStep (w : World) (roots : List Path) (progress : Progress) (step : Step)
    (rest : List Step) : Except Err StepResult → M (Progress × Option Err)
  | .ok r =>
    if r.success then
      runSteps w roots ⟨progress.completed ++ [step], progress.migrations ++ [(step, r)]⟩ rest
    else pure (⟨progress.completed, progress.migrations ++ [(step, r)]⟩,
      some (.migrationError step))
  | .error e => pure (⟨progress.completed,
      progress.migrations ++ [(step, { success := false })]⟩, some e)

section Cons

variable {progress : Progress} {rest : List Step}

theorem runSteps_result : (runSteps w roots progress (step :: rest) s).result =
    (afterStep w roots progress step rest (migrate w roots step s).result
      (migrate w roots step s).state).result := rfl

theorem runSteps_state : (runSteps w roots progress (step :: rest) s).state =
    (afterStep w roots progress step rest (migrate w roots step s).result
      (migrate w roots step s).state).state := rfl

theorem afterStep_success (h : r.success = true) : afterStep w roots progress step rest (.ok r) =
    runSteps w roots ⟨progress.completed ++ [step], progress.migrations ++ [(step, r)]⟩ rest :=
  if_pos h

theorem afterStep_failure (h : ¬ r.success = true) : afterStep w roots progress step rest (.ok r) =
    pure (⟨progress.completed, progress.migrations ++ [(step, r)]⟩,
      some (.migrationError step)) :=
  if_neg h

end Cons

theorem runSteps_recorded (w : World) (roots : List Path) (progress : Progress) (ss : List Step)
    (s : Machine) : ∃ records progress' failure,
      (runSteps w roots progress ss s).result = .ok (progress', failure) ∧
      progress'.migrations = progress.migrations ++ records ∧
      Recorded w roots s records (runSteps w roots progress ss s).state ∧
      records.map Prod.fst <+: ss := by
  induction ss generalizing progress s with
  | nil => exact ⟨[], progress, none, rfl, (List.append_nil _).symm, .nil s, List.nil_prefix⟩
  | cons step rest ih =>
    have hone : [step] <+: step :: rest := List.cons_prefix_cons.mpr ⟨rfl, List.nil_prefix⟩
    rw [runSteps_result, runSteps_state]
    cases hresult : (migrate w roots step s).result with
    | ok r =>
      have hrecords : Records (migrate w roots step s) r := by
        unfold Records
        rw [hresult]
      by_cases hsuccess : r.success = true
      · rw [afterStep_success hsuccess]
        obtain ⟨records, progress', failure, hr, hm, hrec, hpre⟩ :=
          ih ⟨progress.completed ++ [step], progress.migrations ++ [(step, r)]⟩
            (migrate w roots step s).state
        refine ⟨(step, r) :: records, progress', failure, hr, ?_, .cons hrecords hrec, ?_⟩
        · rw [hm, List.append_assoc, List.singleton_append]
        · exact List.cons_prefix_cons.mpr ⟨rfl, hpre⟩
      · rw [afterStep_failure hsuccess]
        exact ⟨[(step, r)], _, _, rfl, rfl, .cons hrecords (.nil _), hone⟩
    | error e =>
      have hrecords : Records (migrate w roots step s) { success := false } := by
        unfold Records
        rw [hresult]
      exact ⟨[(step, { success := false })], _, _, rfl, rfl, .cons hrecords (.nil _), hone⟩

/-! ## Dry runs -/

/-- The pairs of a step and an action in a report. -/
def Report.actions (report : Report) : List (Step × Option Action) :=
  report.progress.migrations.map fun m => (m.1, m.2.action)

/-- What the steps decide on a file system as it is. -/
def forecast (w : World) (fs : Fs) : List (Step × Option Action) :=
  if w.legacyRoots fs = [] then []
  else steps.map fun step => (step, (plan w (w.legacyRoots fs) fs step).foretold)

theorem forecast_of_roots {fs : Fs} (h : w.legacyRoots fs ≠ []) : forecast w fs =
    steps.map fun step => (step, (plan w (w.legacyRoots fs) fs step).foretold) :=
  if_neg h

/-- No step fails before it acts. -/
def Ready (w : World) (fs : Fs) : Prop :=
  w.legacyRoots fs = [] ∨ ∀ step ∈ steps, plan w (w.legacyRoots fs) fs step ≠ .fail

section Dry

variable (hdry : w.dryRun = true)

include hdry

theorem runSteps_dry_state (progress : Progress) (ss : List Step) :
    (runSteps w roots progress ss s).state = s := by
  induction ss generalizing progress with
  | nil => rfl
  | cons step rest ih =>
    rw [runSteps_state, (migrate_obeys w roots step s).state hdry]
    cases (migrate w roots step s).result with
    | ok r =>
      by_cases hsuccess : r.success = true
      · rw [afterStep_success hsuccess]
        exact ih _
      · rw [afterStep_failure hsuccess]
        rfl
    | error e => rfl

theorem runSteps_dry_ready (progress : Progress) {ss : List Step}
    (h : ∀ step ∈ ss, plan w roots s.fs step ≠ .fail) :
    ∃ records, (runSteps w roots progress ss s).result =
        .ok (⟨progress.completed ++ ss, progress.migrations ++ records⟩, none) ∧
      records.map (fun m => (m.1, m.2.action)) =
        ss.map fun step => (step, (plan w roots s.fs step).foretold) := by
  induction ss generalizing progress with
  | nil => exact ⟨[], by rw [List.append_nil, List.append_nil]; rfl, rfl⟩
  | cons step rest ih =>
    obtain ⟨r, hr, hsuccess, haction⟩ :=
      (migrate_obeys w roots step s).foretell hdry (h step List.mem_cons_self)
    rw [runSteps_result, (migrate_obeys w roots step s).state hdry, hr, afterStep_success hsuccess]
    obtain ⟨records, hrun, hrecords⟩ :=
      ih ⟨progress.completed ++ [step], progress.migrations ++ [(step, r)]⟩
        fun step' hmem => h step' (List.mem_cons_of_mem _ hmem)
    refine ⟨(step, r) :: records, ?_, ?_⟩
    · rw [hrun, List.append_assoc, List.append_assoc, List.singleton_append,
        List.singleton_append]
    · rw [List.map_cons, List.map_cons, haction, hrecords]

theorem runSteps_dry_fail (progress : Progress) {ss : List Step}
    (h : ∃ step ∈ ss, plan w roots s.fs step = .fail) :
    ∃ progress' e, (runSteps w roots progress ss s).result = .ok (progress', some e) := by
  induction ss generalizing progress with
  | nil => simp at h
  | cons step rest ih =>
    rw [runSteps_result, (migrate_obeys w roots step s).state hdry]
    by_cases hfail : plan w roots s.fs step = .fail
    · obtain ⟨e, he⟩ := (migrate_obeys w roots step s).fail hfail
      rw [he]
      exact ⟨_, e, rfl⟩
    · obtain ⟨r, hr, hsuccess, -⟩ := (migrate_obeys w roots step s).foretell hdry hfail
      rw [hr, afterStep_success hsuccess]
      obtain ⟨step', hmem, hfail'⟩ := h
      rcases List.mem_cons.mp hmem with rfl | hrest
      · exact absurd hfail' hfail
      · exact ih _ ⟨step', hrest, hfail'⟩

theorem runAll_dry_state : (runAll w roots s).state = s := by
  obtain ⟨records, progress', failure, hrun, -⟩ := runSteps_recorded w roots {} steps s
  have hstate : (runSteps w roots {} steps s).state = s := runSteps_dry_state hdry {} steps
  unfold runAll
  rw [Prog.bind_state hrun, hstate]
  cases failure with
  | none => rfl
  | some e =>
    have hno : ¬ (progress'.completed.isEmpty = false ∧ w.dryRun = false) := by
      simp [hdry]
    cases e <;> simp only [if_neg hno] <;> rfl

theorem performMigration_dry (hroots : w.legacyRoots s.fs ≠ []) :
    performMigration w s = runAll w (w.legacyRoots s.fs) s := by
  show (if w.legacyRoots s.fs = [] then _ else if w.dryRun then _ else _ : M Report) s = _
  rw [if_neg hroots, if_pos hdry]

end Dry

theorem performMigration_noRoots (hroots : w.legacyRoots s.fs = []) :
    performMigration w s =
      ⟨.ok { success := true, message := "No legacy installation detected" }, s, []⟩ := by
  show (if w.legacyRoots s.fs = [] then _ else _ : M Report) s = _
  rw [if_pos hroots]
  rfl

/-- A dry run changes nothing, and reports the forecast if no step fails before it acts. -/
theorem dryRun_reports (w : World) (s : Machine) (hdry : w.dryRun = true) :
    (performMigration w s).state = s ∧
    (Ready w s.fs → ∃ report, (performMigration w s).result = .ok report ∧
      report.success = true ∧ report.actions = forecast w s.fs) ∧
    (¬ Ready w s.fs → ∀ report, (performMigration w s).result = .ok report →
      report.success = false) := by
  by_cases hroots : w.legacyRoots s.fs = []
  · rw [performMigration_noRoots hroots]
    refine ⟨rfl, fun _ => ⟨_, rfl, rfl, ?_⟩, fun hno => absurd (Or.inl hroots) hno⟩
    unfold forecast
    rw [if_pos hroots]
    rfl
  rw [performMigration_dry hdry hroots]
  refine ⟨runAll_dry_state hdry, fun hready => ?_, fun hno report hreport => ?_⟩
  · obtain ⟨records, hrun, hrecords⟩ :=
      runSteps_dry_ready hdry {} (hready.resolve_left hroots)
    refine ⟨_, Prog.bind_eq_ok.mpr ⟨_, hrun, rfl⟩, rfl, ?_⟩
    rw [forecast_of_roots hroots]
    exact hrecords
  · have hfail : ∃ step ∈ steps, plan w (w.legacyRoots s.fs) s.fs step = .fail := by
      by_contra hall
      exact hno (Or.inr fun step hmem hbad => hall ⟨step, hmem, hbad⟩)
    obtain ⟨progress', e, hrun⟩ := runSteps_dry_fail hdry {} hfail
    obtain ⟨out, hout, hreport⟩ := Prog.bind_eq_ok.mp hreport
    rw [hrun] at hout
    cases hout
    have hdryRun : ¬ (progress'.completed.isEmpty = false ∧ w.dryRun = false) := by
      simp [hdry]
    cases e <;> simp only [if_neg hdryRun] at hreport <;> cases hreport <;> rfl

/-! ## Real runs -/

section Real

/-- The trees that these steps change if they decide as on this file system, and the lock. -/
def Disturbs (w : World) (roots : List Path) (fs : Fs) (earlier : List Step) (t : Path) : Prop :=
  t = w.lockFile ∨ ∃ step ∈ earlier, t ∈ (plan w roots fs step).trees w step

/-- In a tree that is changed, or a missing directory above one. -/
def Disturbed (w : World) (roots : List Path) (fs : Fs) (earlier : List Step) (q : Path) : Prop :=
  (∃ t, Disturbs w roots fs earlier t ∧ t <+: q) ∨
    fs.node q = none ∧ ∃ t, Disturbs w roots fs earlier t ∧ q <+: t

/-- The earlier steps leave alone what the step looks at, and what the check of the service file
depends on. -/
structure Clear (w : World) (roots : List Path) (fs : Fs) (earlier : List Step) (step : Step) :
    Prop where
  looks : ∀ q, Looks w roots fs step q → ¬ Disturbed w roots fs earlier q
  service : step = .service → ∀ fs', Agree (Disturbed w roots fs earlier) fs fs' →
    w.serviceNeedsUpdate fs' = w.serviceNeedsUpdate fs

/-- None of the steps looks at what one before it changes. -/
def InTurn (w : World) (roots : List Path) (fs : Fs) (ss : List Step) : Prop :=
  ∀ earlier step later, ss = earlier ++ step :: later → Clear w roots fs earlier step

variable {earlier : List Step} {fs₀ : Fs}

theorem covers_disturbed {t : Path} (h : Disturbs w roots fs₀ earlier t) :
    Covers (Disturbed w roots fs₀ earlier) fs₀ t :=
  ⟨fun _ hq => Or.inl ⟨t, h, hq⟩, fun _ hq hnone => Or.inr ⟨hnone, t, h, hq⟩⟩

theorem not_disturbed_of_apart {p q : Path} (hpq : p <+: q)
    (h : ∀ t, Disturbs w roots fs₀ earlier t → Apart t p) :
    ¬ Disturbed w roots fs₀ earlier q := by
  rintro (⟨t, ht, htq⟩ | ⟨-, t, ht, hqt⟩)
  · rcases List.prefix_or_prefix_of_prefix htq hpq with hp | hp
    · exact (h t ht).1 hp
    · exact (h t ht).2 hp
  · exact (h t ht).2 (hpq.trans hqt)

theorem Disturbed.concat {q : Path} (h : Disturbed w roots fs₀ earlier q) :
    Disturbed w roots fs₀ (earlier ++ [step]) q := by
  have hmore {t : Path} (ht : Disturbs w roots fs₀ earlier t) :
      Disturbs w roots fs₀ (earlier ++ [step]) t :=
    ht.imp_right fun ⟨e, he, hmem⟩ => ⟨e, List.mem_append_left _ he, hmem⟩
  rcases h with ⟨t, ht, hq⟩ | ⟨hnone, t, ht, hq⟩
  · exact Or.inl ⟨t, hmore ht, hq⟩
  · exact Or.inr ⟨hnone, t, hmore ht, hq⟩

theorem Clear.plan_eq (h : Clear w roots fs₀ earlier step)
    (hs : Agree (Disturbed w roots fs₀ earlier) fs₀ s.fs) :
    plan w roots s.fs step = plan w roots fs₀ step :=
  plan_congr (fun q hq => hs q (h.looks q hq)) fun hstep => h.service hstep _ hs

theorem Clear.agree (h : Clear w roots fs₀ earlier step)
    (hs : Agree (Disturbed w roots fs₀ earlier) fs₀ s.fs) :
    Agree (Disturbed w roots fs₀ (earlier ++ [step])) fs₀ (migrate w roots step s).state.fs := by
  refine (migrate_obeys w roots step s).frame _ fs₀ (fun t ht => covers_disturbed ?_)
    (hs.mono fun _ => Disturbed.concat)
  rw [h.plan_eq hs] at ht
  exact Or.inr ⟨step, by simp, ht⟩

theorem Recorded.agree {records : List (Step × StepResult)} (h : Recorded w roots s records s')
    (earlier : List Step) (hturn : InTurn w roots fs₀ (earlier ++ records.map Prod.fst))
    (hs : Agree (Disturbed w roots fs₀ earlier) fs₀ s.fs) :
    Agree (Disturbed w roots fs₀ (earlier ++ records.map Prod.fst)) fs₀ s'.fs := by
  induction h generalizing earlier with
  | nil s =>
    rw [List.map_nil, List.append_nil]
    exact hs
  | @cons s s' step r rest _ _ ih =>
    have hcons : earlier ++ ((step, r) :: rest).map Prod.fst =
        earlier ++ [step] ++ rest.map Prod.fst := by simp
    rw [hcons] at hturn ⊢
    refine ih _ hturn ((hturn earlier step (rest.map Prod.fst) ?_).agree hs)
    rw [List.append_assoc, List.singleton_append]

theorem runAll_progress {report : Report} (h : (runAll w roots s).result = .ok report) :
    ∃ failure, (runSteps w roots {} steps s).result = .ok (report.progress, failure) := by
  obtain ⟨⟨progress, failure⟩, hrun, hreport⟩ := Prog.bind_eq_ok.mp h
  refine ⟨failure, ?_⟩
  rw [hrun]
  cases failure with
  | none =>
    cases hreport
    rfl
  | some e =>
    have hrest (report₀ : Report) (hprogress : report₀.progress = progress) :
        ((if progress.completed.isEmpty = false ∧ w.dryRun = false then do
            let undone ← rollbackMigration w progress
            pure { report₀ with rollback := some undone }
          else pure report₀ : M Report) (runSteps w roots {} steps s).state).result = .ok report →
        report.progress = progress := by
      split_ifs
      · intro hroll
        obtain ⟨undone, -, hout⟩ := Prog.bind_eq_ok.mp hroll
        cases hout
        exact hprogress
      · intro hout
        cases hout
        exact hprogress
    cases e with
    | uncaught => cases hreport
    | osError => rw [hrest _ rfl hreport]
    | migrationError step => rw [hrest _ rfl hreport]

theorem performMigration_runs {report : Report} {T : Path → Prop} (hreal : w.dryRun = false)
    (hlock : Covers T s.fs w.lockFile) (h : (performMigration w s).result = .ok report)
    (hsome : report.progress.migrations ≠ []) :
    ∃ s₁ failure, Agree T s.fs s₁.fs ∧
      (runSteps w (w.legacyRoots s.fs) {} steps s₁).result = .ok (report.progress, failure) := by
  have hnil {report' : Report} {s' : Machine} (hprogress : report'.progress = {})
      (hout : ((pure report' : M Report) s').result = .ok report) : False := by
    cases hout
    exact hsome (by rw [hprogress])
  obtain ⟨fs, hfs, h⟩ := Prog.bind_eq_ok.mp h
  cases hfs
  by_cases hroots : w.legacyRoots s.fs = []
  · rw [if_pos hroots] at h
    exact (hnil rfl h).elim
  rw [if_neg hroots, if_neg (by rw [hreal]; exact Bool.false_ne_true)] at h
  by_cases hrunning : w.isMmrelayRunning = true ∧ w.force = false
  · rw [if_pos hrunning] at h
    exact (hnil rfl h).elim
  rw [if_neg hrunning] at h
  by_cases hspace : w.diskSpaceOk = false
  · rw [if_pos hspace] at h
    exact (hnil rfl h).elim
  rw [if_neg hspace] at h
  obtain ⟨made, hmade, h⟩ := Prog.bind_eq_ok.mp h
  have hhome : Framed T s.fs (mkdir w.faults w.newHome : M Unit) :=
    Framed.mkdir (hlock.parents (List.prefix_append _ _))
  have hmkdir := hhome.attempt.agree (Agree.refl T s.fs)
  cases made with
  | error e => exact (hnil rfl h).elim
  | ok u =>
    obtain ⟨fs, hfs, h⟩ := Prog.bind_eq_ok.mp h
    cases hfs
    split_ifs at h
    · exact (hnil rfl h).elim
    obtain ⟨tick, htick, h⟩ := Prog.bind_eq_ok.mp h
    cases htick
    obtain ⟨wrote, -, h⟩ := Prog.bind_eq_ok.mp h
    obtain ⟨report', hall, h⟩ := Prog.bind_eq_ok.mp h
    obtain ⟨released, -, h⟩ := Prog.bind_eq_ok.mp h
    cases h
    obtain ⟨failure, hrun⟩ := runAll_progress hall
    refine ⟨_, failure, ?_, hrun⟩
    exact (Framed.attempt (Framed.writeText (hlock.below _ List.prefix_rfl))).agree hmkdir

end Real

/-! ## Forecasts that come true -/

/-- The action that a real run reports for one that is foretold. -/
def Action.done : Action → Action
  | .update => .updated
  | a => a

namespace Plan

/-- The decision is not the answer that announces an update. -/
def Plain (p : Plan) : Prop := p ≠ .answer .update

theorem plain_unlessPresent {old dest : Path} {present force : Bool} :
    (unlessPresent old dest present force).Plain := by
  unfold unlessPresent Plain
  split_ifs <;> simp

theorem plain_withoutCandidate {present : Bool} : (withoutCandidate present).Plain := by
  unfold withoutCandidate Plain
  split_ifs <;> simp

theorem plain_withoutGpx {filled : Bool} : (withoutGpx w filled).Plain := by
  unfold withoutGpx
  split_ifs
  · simp [Plain]
  · exact plain_withoutCandidate

theorem reported_of_foretold {p : Plan} {a : Action} (h : p.foretold = some a) (hp : p.Plain) :
    p.reported = some a.done := by
  cases p with
  | answer b =>
    cases h
    cases a with
    | update => exact absurd rfl hp
    | _ => rfl
  | act sources dest =>
    cases h
    rfl
  | update =>
    cases h
    rfl
  | fail => cases h

end Plan

/-- Only the step of the service file announces an update. -/
theorem plan_plain (w : World) (roots : List Path) (fs : Fs) (step : Step) :
    (plan w roots fs step).Plain := by
  cases step with
  | credentials =>
    simp only [plan, planCredentials]
    split
    · simp [Plan.Plain]
    · exact Plan.plain_unlessPresent
    · split
      · exact Plan.plain_unlessPresent
      · exact Plan.plain_withoutCandidate
  | config =>
    simp only [plan, planConfig]
    split
    · simp [Plan.Plain]
    · exact Plan.plain_unlessPresent
    · exact Plan.plain_withoutCandidate
  | database =>
    simp only [plan, planDatabase]
    split
    · simp [Plan.Plain]
    · exact Plan.plain_withoutCandidate
    · split_ifs <;> simp [Plan.Plain]
  | logs =>
    simp only [plan, planLogs]
    split
    · exact Plan.plain_withoutCandidate
    · split_ifs
      · simp [Plan.Plain]
      · exact Plan.plain_unlessPresent
  | store =>
    simp only [plan, planStore]
    split
    · simp [Plan.Plain]
    · exact Plan.plain_unlessPresent
    · exact Plan.plain_withoutCandidate
  | plugins =>
    simp only [plan, planPlugins]
    split
    · exact Plan.plain_withoutCandidate
    · split_ifs
      · simp [Plan.Plain]
      · exact Plan.plain_unlessPresent
  | gpxtracker =>
    simp only [plan, planGpxtracker, gpxPlan]
    split
    · simp [Plan.Plain]
    · exact Plan.plain_withoutGpx
    · split_ifs
      · simp [Plan.Plain]
      · exact Plan.plain_withoutGpx
      · exact Plan.plain_unlessPresent
  | service =>
    simp only [plan, planService]
    split
    · simp [Plan.Plain]
    · split
      · simp [Plan.Plain]
      · split_ifs <;> simp [Plan.Plain]

/-- **A real run**, with whatever faults: a step that succeeds reports what it would have decided at
the start, if the steps up to it run in turn. -/
theorem realRun_follows (w : World) (s : Machine) (hreal : w.dryRun = false) {report : Report}
    (hrun : (performMigration w s).result = .ok report)
    {before after : List (Step × StepResult)} {step : Step} {r : StepResult}
    (hrecord : report.progress.migrations = before ++ (step, r) :: after)
    (hsuccess : r.success = true)
    (hturn : InTurn w (w.legacyRoots s.fs) s.fs (before.map Prod.fst ++ [step])) :
    r.action = (plan w (w.legacyRoots s.fs) s.fs step).reported := by
  obtain ⟨s₁, failure, hagree, hsteps⟩ := performMigration_runs hreal
    (covers_disturbed (Or.inl rfl)) hrun
    (by rw [hrecord]; simp)
  obtain ⟨records, progress', failure', hsteps', hmigrations, hrecorded, -⟩ :=
    runSteps_recorded w (w.legacyRoots s.fs) {} steps s₁
  rw [hsteps] at hsteps'
  cases hsteps'
  rw [hrecord] at hmigrations
  obtain rfl : before ++ (step, r) :: after = records := hmigrations
  obtain ⟨m, hbefore, hlater⟩ := hrecorded.split
  have hfirst : InTurn w (w.legacyRoots s.fs) s.fs (before.map Prod.fst) := by
    intro earlier e later heq
    exact hturn earlier e (later ++ [step]) (by rw [heq]; simp)
  have hm := hbefore.agree [] hfirst hagree
  rw [List.nil_append] at hm
  cases hlater with
  | cons hrecords hrest =>
    rw [← (hturn _ step [] rfl).plan_eq hm]
    exact (migrate_obeys w _ step m).report hreal r (hrecords.ok hsuccess) hsuccess

/-- The same run as a dry one. -/
def World.dry (w : World) : World := { w with dryRun := true }

theorem databaseCandidates_dry {fs : Fs} {single : Bool} (rs : List Path) :
    databaseCandidates w.dry fs single rs =
      databaseCandidates w fs single rs := by
  induction rs with
  | nil => rfl
  | cons root rest ih =>
    unfold databaseCandidates
    rw [ih]
    rfl

theorem gpxDir_dry {config : Path → Option Node} {there : Path → Bool} (last : Option Path)
    (rs : List Path) :
    gpxDir w.dry config there last rs = gpxDir w config there last rs := by
  induction rs generalizing last with
  | nil => rfl
  | cons root rest ih =>
    unfold gpxDir
    simp only [ih]
    rfl

/-- The decisions do not depend on whether the run is dry. -/
theorem plan_dry (step : Step) {fs : Fs} :
    plan w.dry roots fs step = plan w roots fs step := by
  cases step with
  | database =>
    show planDatabase w.dry roots fs = planDatabase w roots fs
    unfold planDatabase
    rw [databaseCandidates_dry]
    rfl
  | gpxtracker =>
    show planGpxtracker w.dry roots fs = planGpxtracker w roots fs
    unfold planGpxtracker gpxPlan
    rw [gpxDir_dry]
    rfl
  | _ => rfl

theorem forecast_dry {fs : Fs} : forecast w.dry fs = forecast w fs := by
  unfold forecast
  simp only [plan_dry]
  rfl

theorem ready_dry {fs : Fs} : Ready w.dry fs ↔ Ready w fs := by
  unfold Ready
  simp only [plan_dry]
  rfl

/-- **A dry run** changes nothing. If no step fails before it acts it reports what the steps of a
real run decide on the same file system, and otherwise no success. -/
theorem dryRun_foretells (w : World) (s : Machine) :
    (performMigration w.dry s).state = s ∧
    (Ready w s.fs → ∃ report, (performMigration w.dry s).result = .ok report ∧
      report.success = true ∧ report.actions = forecast w s.fs) ∧
    (¬ Ready w s.fs → ∀ report, (performMigration w.dry s).result = .ok report →
      report.success = false) := by
  obtain ⟨hstate, hyes, hno⟩ := dryRun_reports w.dry s rfl
  rw [ready_dry, forecast_dry] at hyes
  rw [ready_dry] at hno
  exact ⟨hstate, hyes, hno⟩

/-- **A forecast comes true**: where a real run, with whatever faults, gets to a step and the step
succeeds, it reports the action that a successful dry run foretells, if none of the steps up to it
looks at what the forecast says that one before it changes. -/
theorem dryRun_predicts (w : World) (s : Machine) (hreal : w.dryRun = false)
    {report foretold : Report} (hrun : (performMigration w s).result = .ok report)
    (hdry : (performMigration w.dry s).result = .ok foretold)
    (hready : foretold.success = true) {before after : List (Step × StepResult)} {step : Step}
    {r : StepResult} (hrecord : report.progress.migrations = before ++ (step, r) :: after)
    (hsuccess : r.success = true)
    (hturn : InTurn w (w.legacyRoots s.fs) s.fs (before.map Prod.fst ++ [step])) :
    ∃ a, (step, some a) ∈ foretold.actions ∧ r.action = some a.done := by
  have haction := realRun_follows w s hreal hrun hrecord hsuccess hturn
  have hroots : w.legacyRoots s.fs ≠ [] := by
    intro hnil
    rw [performMigration_noRoots hnil] at hrun
    cases hrun
    simp at hrecord
  obtain ⟨-, hyes, hno⟩ := dryRun_reports w.dry s rfl
  by_cases hr : Ready w.dry s.fs
  · obtain ⟨report', hreport', -, hactions⟩ := hyes hr
    rw [hdry] at hreport'
    cases hreport'
    have hnofail : plan w (w.legacyRoots s.fs) s.fs step ≠ .fail := by
      have hall := hr.resolve_left hroots step (by cases step <;> simp [steps])
      rwa [plan_dry] at hall
    obtain ⟨a, ha⟩ : ∃ a, (plan w (w.legacyRoots s.fs) s.fs step).foretold = some a := by
      cases hp : plan w (w.legacyRoots s.fs) s.fs step with
      | fail => exact absurd hp hnofail
      | _ => exact ⟨_, rfl⟩
    refine ⟨a, ?_, ?_⟩
    · rw [hactions, forecast_dry, forecast_of_roots hroots, ← ha]
      exact List.mem_map.mpr ⟨step, by cases step <;> simp [steps], rfl⟩
    · rw [haction]
      exact Plan.reported_of_foretold ha (plan_plain w _ _ step)
  · rw [hno hr foretold hdry] at hready
    cases hready

/-- A legacy root that holds the keys of a store, and a service file. -/
def keysFs : Fs :=
  ((Fs.root.mkdirs ["old", "store"]).writeFile ["old", "store", "keys"] "K" 1 |>.mkdirs
    ["u"]).writeFile ["u", "mmrelay.service"] "outdated" 1

/-- A run for it without faults. -/
def keysWorld : World where
  newHome := ["h"]
  legacySources := [["old"]]
  homeDir := ["u"]
  servicePath := ["u", "mmrelay.service"]
  dryRun := false
  force := false
  faults _ := none
  backupStamp _ := "t"
  migrationStamp _ := "t"
  dirMtime _ _ := 0
  looksLikeMatrixCredentials _ := false
  yamlAvailable := true
  gpxDirectory _ := .absent
  integrityCheck _ _ := { passed := true }
  isMigrationNeeded _ := true
  isMmrelayRunning := false
  diskSpaceOk := true
  serviceNeedsUpdate fs :=
    match fs.node ["u", "mmrelay.service"] with
    | some (.file content _) => .ok (content = "outdated")
    | some .dir => .error .uncaught
    | none => .ok true
  serviceContent := some "current"

/-- The steps look at nothing outside these trees. -/
def keysLooks : Step → List Path
  | .credentials =>
    [["h", "matrix", "credentials.json"], ["u", "credentials.json"], ["old", "credentials.json"],
      ["h", "credentials.json"]]
  | .config => [["h", "config.yaml"], ["old", "config.yaml"]]
  | .database =>
    [["h", "database"], ["old", "data"], ["old", "database"]] ++
      dbNames.map fun n => ["old", n]
  | .logs => [["h", "logs"], ["old", "logs"]]
  | .store => [["h", "matrix", "store"], ["old", "store"], ["h", "store"]]
  | .plugins => [["h", "plugins"], ["old", "plugins"]]
  | .gpxtracker => [["h", "plugins"], ["old", "config.yaml"], ["h", "config.yaml"]]
  | .service => [["u", "mmrelay.service"]]

theorem looks_keysWorld {q : Path} (h : Looks keysWorld [["old"]] keysFs step q) :
    ∃ p ∈ keysLooks step, p <+: q := by
  have hroots : keysWorld.rootsToScan [["old"]] = [["old"], ["h"]] := by decide
  cases step with
  | credentials =>
    rcases h with rfl | rfl | ⟨root, hroot, rfl⟩
    · decide
    · decide
    · rw [hroots] at hroot
      revert root
      decide
  | config =>
    rcases h with rfl | ⟨root, hroot, rfl⟩
    · decide
    · revert root
      decide
  | database =>
    rcases h with rfl | ⟨root, hroot, rfl | rfl | ⟨n, hn, rfl | rfl | rfl⟩⟩
    · decide
    all_goals
      obtain rfl := List.mem_singleton.mp hroot
    · decide
    · decide
    · exact ⟨["old", n], List.mem_append_right _ (List.mem_map_of_mem hn), List.prefix_rfl⟩
    · exact ⟨["old", "data"], by decide, List.prefix_append ["old", "data"] [n]⟩
    · exact ⟨["old", "database"], by decide, List.prefix_append ["old", "database"] [n]⟩
  | logs =>
    rcases h with h | ⟨root, hroot, rfl⟩
    · exact ⟨["h", "logs"], by decide, h.below (by decide)⟩
    · revert root
      decide
  | store =>
    rcases h with h | ⟨root, hroot, rfl⟩
    · exact ⟨["h", "matrix", "store"], by decide, h.below (by decide)⟩
    · rw [hroots] at hroot
      revert root
      decide
  | plugins =>
    rcases h with h | ⟨tier, htier, h⟩ | ⟨root, hroot, rfl⟩
    · exact ⟨["h", "plugins"], by decide, h.below (by decide)⟩
    · exact ⟨["h", "plugins"], by decide, h.below (List.prefix_append ["h", "plugins"] [tier])⟩
    · revert root
      decide
  | gpxtracker =>
    rcases h with h | ⟨root, hroot, rfl⟩ | ⟨root, hroot, c, m, hfile, hc⟩
    · exact ⟨["h", "plugins"], by decide, h.below (by decide)⟩
    · rw [hroots] at hroot
      revert root
      decide
    · cases hc
  | service => exact ⟨_, List.mem_singleton_self _, h.symm ▸ List.prefix_rfl⟩

/-- No step looks at what another one changes. -/
theorem inTurn_keysWorld : InTurn keysWorld [["old"]] keysFs steps := by
  have happart : ∀ step ∈ steps, ∀ p ∈ keysLooks step, Apart keysWorld.lockFile p ∧
      ∀ e ∈ steps, e ≠ step → ∀ t ∈ (plan keysWorld [["old"]] keysFs e).trees keysWorld e,
        Apart t p := by
    unfold Apart
    decide +kernel
  intro earlier step later heq
  have hnodup : steps.Nodup := by decide
  rw [heq] at hnodup happart
  have hlooks {q : Path} (hq : Looks keysWorld [["old"]] keysFs step q) :
      ¬ Disturbed keysWorld [["old"]] keysFs earlier q := by
    obtain ⟨p, hp, hpq⟩ := looks_keysWorld hq
    obtain ⟨hlock, hothers⟩ := happart step (by simp) p hp
    refine not_disturbed_of_apart hpq ?_
    rintro t (rfl | ⟨e, he, ht⟩)
    · exact hlock
    · refine hothers e (List.mem_append_left _ he) ?_ t ht
      rintro rfl
      exact List.disjoint_of_nodup_append hnodup he List.mem_cons_self
  refine ⟨fun q => hlooks, fun hstep fs' hagree => ?_⟩
  subst hstep
  have hnode : fs'.node ["u", "mmrelay.service"] = keysFs.node ["u", "mmrelay.service"] :=
    hagree _ (hlooks rfl)
  simp only [keysWorld, hnode]

theorem report_of_outline {x : Run Machine Event Err Report} {a : Report → Prop} [DecidablePred a]
    (h : (x.result.toOption.any fun report => decide (a report)) = true) :
    ∃ report, x.result = .ok report ∧ a report := by
  cases hx : x.result with
  | ok report =>
    rw [hx] at h
    exact ⟨report, rfl, of_decide_eq_true h⟩
  | error e =>
    rw [hx] at h
    cases h

/-- The update of the service file, after the move of the store. -/
theorem dryRun_predicts_keys : ∃ report foretold : Report,
    (performMigration keysWorld ⟨keysFs, 0⟩).result = .ok report ∧
    (performMigration keysWorld.dry ⟨keysFs, 0⟩).result = .ok foretold ∧
    ∃ r, (Step.service, r) ∈ report.progress.migrations ∧
      (Step.service, some .update) ∈ foretold.actions ∧ r.action = some .updated := by
  obtain ⟨report, hreport, hsteps, hok⟩ := report_of_outline
    (x := performMigration keysWorld ⟨keysFs, 0⟩)
    (a := fun report => report.progress.migrations.map Prod.fst = steps ∧
      ∀ m ∈ report.progress.migrations, m.2.success = true) (by decide +kernel)
  obtain ⟨foretold, hforetold, hready, hupdate⟩ := report_of_outline
    (x := performMigration keysWorld.dry ⟨keysFs, 0⟩)
    (a := fun report => report.success = true ∧
      ∀ m ∈ report.actions, m.1 = .service → m.2 = some .update) (by decide +kernel)
  refine ⟨report, foretold, hreport, hforetold, ?_⟩
  obtain ⟨before, rest, heq, hbefore, hrest⟩ := List.map_eq_append_iff.mp
    (show _ = [Step.credentials, .config, .database, .logs, .store, .plugins, .gpxtracker] ++
      [.service] from hsteps)
  obtain ⟨⟨step, r⟩, after, rfl, rfl, hafter⟩ := List.map_eq_cons_iff.mp hrest
  have hmem : (Step.service, r) ∈ report.progress.migrations := by
    rw [heq]
    simp
  obtain ⟨a, ha, hr⟩ := dryRun_predicts keysWorld ⟨keysFs, 0⟩ rfl hreport hforetold hready heq
    (hok _ hmem) (by rw [hbefore]; exact inTurn_keysWorld)
  obtain rfl : a = .update := Option.some.inj (hupdate _ ha rfl)
  exact ⟨r, hmem, ha, hr⟩

end MMRelay.Migrate
