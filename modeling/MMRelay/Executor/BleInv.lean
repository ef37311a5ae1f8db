import MMRelay.Executor.Ble

/-!
# What the parties of the BLE worker keep

* `step_call`, `step_submit`, …: what one step of each kind can do;
* `winding_of_task`, `winding_advance`: what is to be shut down when a task goes on;
* `Inv`: the invariant; `Inv.sound`: it implies `Sound`;
* `Inv.congr`, `Inv.advance`, `Inv.start`, `Inv.finish`, `Inv.clear`, `Inv.reset`, `Inv.drop`: what
  the sections do;
* **`Inv.step`**: a settled step keeps it.
-/

namespace MMRelay.Executor.Ble

variable {α : Type}

/-! ## What one step can do -/

section Steps

variable [DecidableEq α] {limits : Limits} {s s' : State α} {i p : ℕ} {a : α}

theorem step_tick {t : ℚ} (hs : step limits s (.tick t) = some s') : s' = { s with now := t } := by
  simp only [step] at hs
  split_ifs at hs
  cases hs
  rfl

/-- The caller submits, waits for another look, or accounts for a stale operation first. -/
theorem step_call (hs : step limits s (.call a) = some s') :
    ∃ task, s' = { s with tasks := s.tasks ++ [task] } ∧
      (task = .submission a ∨ task = .recheck a ∨
        ∃ p job, s.busy = some (p, job) ∧ task = .record job.address (some a)) := by
  simp only [step] at hs
  split at hs
  · cases hs
    exact ⟨_, rfl, .inl rfl⟩
  · next p job hbusy =>
    split_ifs at hs
    · cases hs
      exact ⟨_, rfl, .inr (.inr ⟨p, job, hbusy, rfl⟩)⟩
    · cases hs
      exact ⟨_, rfl, .inr (.inl rfl)⟩

theorem step_recheck (hs : step limits s (.recheck i) = some s') :
    ∃ a, s.tasks[i]? = some (.recheck a) ∧
      s' = s.advance i (if s.busy.isSome then none else some (.submission a)) := by
  simp only [step] at hs
  split at hs
  · next a htask =>
    cases hs
    exact ⟨a, htask, rfl⟩
  · cases hs

/-- The operation is refused, or `submit` fails, or it is submitted to a worker that is not busy. -/
theorem step_submit {timeoutSecs : ℚ} {fails : Bool}
    (hs : step limits s (.submit i timeoutSecs fails) = some s') :
    ∃ a, s.tasks[i]? = some (.submission a) ∧
      (s' = s.advance i none ∨ s' = s.withExecutor.advance i none ∨
        s.busy = none ∧ a ∉ s.degraded ∧
          s' = (s.start a timeoutSecs).advance i (some (.waiting a s.jobs.length))) := by
  simp only [step] at hs
  split at hs
  · next a htask =>
    refine ⟨a, htask, ?_⟩
    split_ifs at hs with hrefused
    · cases hs
      exact .inl rfl
    · cases hs
      exact .inr (.inl rfl)
    · cases hs
      rw [Bool.or_eq_true, not_or, Bool.not_eq_true, Option.isSome_eq_false_iff,
        Option.isNone_iff_eq_none, List.contains_iff_mem] at hrefused
      exact .inr (.inr ⟨hrefused.1, hrefused.2, rfl⟩)
  · cases hs

theorem step_finish (hs : step limits s (.finish p) = some s') : s' = s.finish p := by
  simp only [step] at hs
  split_ifs at hs
  cases hs
  rfl

theorem step_clear (hs : step limits s (.clear p) = some s') :
    (∀ job, s.jobs[p]? = some job → job.done = true) ∧ s' = s.clear p := by
  simp only [step] at hs
  split at hs
  · next job hjob =>
    split_ifs at hs with hdone
    cases hs
    refine ⟨fun k hk => ?_, rfl⟩
    rwa [← Option.some.inj (hjob.symm.trans hk)]
  · cases hs

theorem step_resolve (hs : step limits s (.resolve i) = some s') :
    (∃ a p, s.tasks[i]? = some (.waiting a p)) ∧ s' = s.advance i none := by
  simp only [step] at hs
  split at hs
  · next a p htask =>
    split_ifs at hs
    cases hs
    exact ⟨⟨a, p, htask⟩, rfl⟩
  · cases hs

/-- The operation is cancelled, or a watchdog is set and the timeout may be recorded. -/
theorem step_giveUp {timedOut cancelled : Bool}
    (hs : step limits s (.giveUp i timedOut cancelled) = some s') :
    ∃ a p, s.tasks[i]? = some (.waiting a p) ∧
      (s' = ((s.finish p).clear p).advance i none ∨
        ∃ next, (∀ t ∈ next, t = .record a none) ∧
          s' = { s with armed := s.armed ++ [(p, s.now)] }.advance i next) := by
  simp only [step] at hs
  split at hs
  · next a p htask =>
    refine ⟨a, p, htask, ?_⟩
    split_ifs at hs
    · cases hs
      exact .inl rfl
    · cases hs
      exact .inr ⟨_, fun t ht => (Option.some.inj ht).symm, rfl⟩
    · cases hs
      exact .inr ⟨none, fun t ht => (by cases ht), rfl⟩
  · cases hs

theorem step_record (hs : step limits s (.record i) = some s') :
    ∃ a next count timeoutCounts, s.tasks[i]? = some (.record a next) ∧
      s' = { s with timeoutCounts := timeoutCounts }.advance i (some (.reset a count next)) := by
  simp only [step] at hs
  split at hs
  · next a next htask =>
    cases hs
    exact ⟨a, next, _, _, htask, rfl⟩
  · cases hs

theorem step_reset (hs : step limits s (.reset i) = some s') :
    ∃ a count next, s.tasks[i]? = some (.reset a count next) ∧
      s' = (s.resetFor limits a count next).1.advance i (s.resetFor limits a count next).2 := by
  simp only [step] at hs
  split at hs
  · next a count next htask =>
    cases hs
    exact ⟨a, count, next, htask, rfl⟩
  · cases hs

/-- The operation may be cancelled before the executor is shut down. -/
theorem step_cancel {cancelled : Bool} (hs : step limits s (.cancel i cancelled) = some s') :
    ∃ future executor zeroed next, s.tasks[i]? = some (.cancel future executor zeroed next) ∧
      ∃ t, (t = s ∨ ∃ p, t = s.finish p) ∧
        s' = t.advance i (some (.shutdown executor zeroed next)) := by
  simp only [step] at hs
  split at hs
  · next future executor zeroed next htask =>
    cases hs
    refine ⟨future, executor, zeroed, next, htask, _, ?_, rfl⟩
    split_ifs
    · cases future with
      | none => exact .inl rfl
      | some p => exact .inr ⟨p, rfl⟩
    · exact .inl rfl
  · cases hs

theorem step_shutdown (hs : step limits s (.shutdown i) = some s') :
    ∃ executor zeroed next rest, s.tasks[i]? = some (.shutdown executor zeroed next) ∧
      (rest = next.map .recheck ∨ ∃ a, zeroed = some a ∧ rest = some (.zero a next)) ∧
      s' = { s with stopped := executor.toList ++ s.stopped }.advance i rest := by
  simp only [step] at hs
  split at hs
  · next executor zeroed next htask =>
    cases hs
    refine ⟨executor, zeroed, next, _, htask, ?_, rfl⟩
    cases zeroed with
    | none => exact .inl rfl
    | some a => exact .inr ⟨a, rfl, rfl⟩
  · cases hs

theorem step_zero (hs : step limits s (.zero i) = some s') :
    ∃ a next timeoutCounts, s.tasks[i]? = some (.zero a next) ∧
      s' = { s with timeoutCounts := timeoutCounts }.advance i (next.map .recheck) := by
  simp only [step] at hs
  split at hs
  · next a next htask =>
    cases hs
    exact ⟨a, next, _, htask, rfl⟩
  · cases hs

/-- A watchdog fires, and looks after an operation that is not done. -/
theorem step_fire {t : ℚ} (hs : step limits s (.fire p t) = some s') :
    ∃ job armed ts, s.jobs[p]? = some job ∧ (∀ task ∈ ts, task = .cleanup job.address p) ∧
      s' = { s with armed := armed, tasks := s.tasks ++ ts } := by
  simp only [step] at hs
  split at hs
  · next job hjob =>
    split_ifs at hs with _ hdone
    · cases hs
      exact ⟨job, _, [], hjob, fun task ht => absurd ht List.not_mem_nil, rfl⟩
    · cases hs
      exact ⟨job, _, _, hjob, fun task ht => List.mem_singleton.mp ht, rfl⟩
  · cases hs

theorem step_cleanup (hs : step limits s (.cleanup i) = some s') :
    ∃ a p next, s.tasks[i]? = some (.cleanup a p) ∧
      (∀ t ∈ next, t = .reset a limits.resetThreshold none) ∧ s' = s.advance i next := by
  simp only [step] at hs
  split at hs
  · next a p htask =>
    cases hs
    refine ⟨a, p, _, htask, fun t ht => ?_, rfl⟩
    split_ifs at ht
    · exact (Option.some.inj ht).symm
    · cases ht
  · cases hs

/-- The executor of a busy worker is left to a party that cancels and shuts it down. -/
theorem step_lost (hs : step limits s .lost = some s') :
    s' = s ∨ ∃ p timeoutCounts, s' = { s with
      future := none, timeoutCounts := timeoutCounts, executor := none
      tasks := s.tasks ++ [.cancel (some p) s.executor none none] } := by
  simp only [step] at hs
  split at hs
  · cases hs
    exact .inl rfl
  · next p job _ =>
    cases hs
    exact .inr ⟨p, _, rfl⟩

/-- Addresses recover, and the executor is left to a party that shuts it down. -/
theorem step_recover {address : Option α} (hs : step limits s (.recover address) = some s') :
    s' = s ∨ ∃ degraded orphans, degraded ⊆ s.degraded ∧ (∀ a, orphans a ≤ s.orphans a) ∧
      s' = { s with
        degraded := degraded, orphans := orphans, executor := none
        tasks := s.tasks ++ [.shutdown s.executor none none] } := by
  cases address with
  | none =>
    simp only [step] at hs
    split_ifs at hs
    · cases hs
      exact .inl rfl
    · cases hs
      exact .inr ⟨[], fun _ => 0, List.nil_subset _, fun a => Nat.zero_le _, rfl⟩
  | some b =>
    simp only [step] at hs
    split_ifs at hs
    · cases hs
      refine .inr ⟨_, _, List.filter_subset_self _, fun c => ?_, rfl⟩
      rw [Function.update_apply]
      split_ifs
      · exact Nat.zero_le _
      · exact le_rfl
    · cases hs
      exact .inl rfl

end Steps

/-! ## Tasks -/

section Tasks

variable {β : Type} {l : List β} {i : ℕ} {x : β} (f : β → Bool)

theorem any_eq_of_getElem? (h : l[i]? = some x) : l.any f = ((l.eraseIdx i).any f || f x) := by
  induction l generalizing i with
  | nil => cases h
  | cons y l ih =>
    cases i with
    | zero =>
      cases h
      simp [Bool.or_comm]
    | succ i => simp [ih h, Bool.or_assoc]

theorem any_set_of_getElem? (h : l[i]? = some x) (y : β) :
    (l.set i y).any f = ((l.eraseIdx i).any f || f y) := by
  induction l generalizing i with
  | nil => cases h
  | cons z l ih =>
    cases i with
    | zero => simp [Bool.or_comm]
    | succ i => simp [ih h, Bool.or_assoc]

end Tasks

variable {s s' : State α} {i : ℕ} {old : Task α} {next : Option (Task α)}

theorem winding_of_task (h : s.tasks[i]? = some old) (e : ℕ) :
    s.winding e = ((s.tasks.eraseIdx i).any (Task.winds e) || old.winds e) :=
  any_eq_of_getElem? _ h

theorem winding_advance (h : s.tasks[i]? = some old) (e : ℕ) :
    (s.advance i next).winding e =
      ((s.tasks.eraseIdx i).any (Task.winds e) || next.any (Task.winds e)) := by
  cases next with
  | none => simp [State.advance, State.winding]
  | some t => exact any_set_of_getElem? _ h t

/-! ## What every step keeps -/

/-- What holds in every reachable state. -/
structure Inv (s : State α) : Prop where
  apart : ∀ (p q : ℕ) (job job' : Job α), s.jobs[p]? = some job → s.jobs[q]? = some job' →
    job.done = false → job'.done = false → job.executor = job'.executor → p = q
  threshold : ∀ a, s.orphans a < executorOrphanThreshold
  refused : ∀ (p : ℕ) (job : Job α), s.jobs[p]? = some job → job.degraded = false
  fresh : ∀ e, s.executor = some e → e < s.nextExecutor
  placed : ∀ (p : ℕ) (job : Job α), s.jobs[p]? = some job → job.executor < s.nextExecutor
  windable : ∀ e, s.winding e = true → e < s.nextExecutor
  /-- Only an executor that is given up for a degraded address stays the current one. -/
  ailing : ∀ e, s.executor = some e → s.winding e = true → s.degraded ≠ []
  /-- The current executor runs the current operation only, unless it is given up. -/
  alone : ∀ (p : ℕ) (job : Job α), s.jobs[p]? = some job → job.done = false →
    s.executor = some job.executor →
      s.future = some p ∨ job.executor ∈ s.stopped ∨ s.winding job.executor = true

namespace Inv

theorem sound (h : Inv s) : Sound s where
  apart := h.apart
  threshold := h.threshold
  refused job hjob := by
    obtain ⟨p, hp⟩ := List.mem_iff_getElem?.mp hjob
    exact h.refused p job hp

theorem congr (h : Inv s) {stopped : List ℕ} {tasks : List (Task α)} {timeoutCounts : α → ℕ}
    {armed : List (ℕ × ℚ)} {now : ℚ}
    (hsub : ∀ e, tasks.any (Task.winds e) = true → s.winding e = true)
    (hsup : ∀ e, e ∈ s.stopped ∨ s.winding e = true →
      e ∈ stopped ∨ tasks.any (Task.winds e) = true) :
    Inv { s with
      stopped := stopped, tasks := tasks, timeoutCounts := timeoutCounts, armed := armed
      now := now } where
  apart := h.apart
  threshold := h.threshold
  refused := h.refused
  fresh := h.fresh
  placed := h.placed
  windable e he := h.windable e (hsub e he)
  ailing e hexec he := h.ailing e hexec (hsub e he)
  alone p job hp hdone hexec :=
    (h.alone p job hp hdone hexec).imp_right fun hgone => hsup job.executor hgone

theorem push (h : Inv s) (ts : List (Task α)) (hts : ∀ e, ts.any (Task.winds e) = false) :
    Inv { s with tasks := s.tasks ++ ts } := by
  have hsame : ∀ e, (s.tasks ++ ts).any (Task.winds e) = s.winding e := by
    intro e
    rw [List.any_append, hts e, Bool.or_false]
    rfl
  exact h.congr (fun e he => (hsame e).symm.trans he)
    (fun e he => he.imp_right fun hw => (hsame e).trans hw)

theorem advance (h : Inv s) (htask : s.tasks[i]? = some old)
    (hsub : ∀ e, next.any (Task.winds e) = true → old.winds e = true)
    (hsup : ∀ e, old.winds e = true → e ∈ s.stopped ∨ next.any (Task.winds e) = true) :
    Inv (s.advance i next) := by
  have hinv : Inv { s with tasks := (s.advance i next).tasks } := by
    refine h.congr (fun e he => ?_) (fun e he => ?_)
    · change (s.advance i next).winding e = true at he
      rw [winding_advance htask, Bool.or_eq_true] at he
      rw [winding_of_task htask, Bool.or_eq_true]
      exact he.imp_right (hsub e)
    · change e ∈ s.stopped ∨ (s.advance i next).winding e = true
      rw [winding_of_task htask, Bool.or_eq_true] at he
      rw [winding_advance htask, Bool.or_eq_true]
      obtain hstop | hrest | hold := he
      · exact Or.inl hstop
      · exact Or.inr (Or.inl hrest)
      · exact (hsup e hold).imp_right Or.inr
  cases next with
  | none => exact hinv
  | some t => exact hinv

theorem advance_plain (h : Inv s) (htask : s.tasks[i]? = some old)
    (hold : ∀ e, old.winds e = false) (hnext : ∀ e, next.any (Task.winds e) = false) :
    Inv (s.advance i next) :=
  h.advance htask (fun e he => absurd ((hnext e).symm.trans he) Bool.false_ne_true)
    (fun e he => absurd ((hold e).symm.trans he) Bool.false_ne_true)

theorem withExecutor (h : Inv s) : Inv s.withExecutor := by
  unfold State.withExecutor
  split_ifs
  · exact h
  · refine { h with fresh := ?_, placed := ?_, windable := ?_, ailing := ?_, alone := ?_ }
    · intro e he
      cases he
      exact Nat.lt_succ_self _
    · intro p job hp
      exact Nat.lt_succ_of_lt (h.placed p job hp)
    · intro e he
      exact Nat.lt_succ_of_lt (h.windable e he)
    · intro e he hw
      cases he
      exact absurd (h.windable _ hw) (Nat.lt_irrefl _)
    · intro p job hp _ he
      -- a new executor runs no operation
      have hlt := h.placed p job hp
      rw [← Option.some.inj he] at hlt
      exact absurd hlt (Nat.lt_irrefl _)

theorem getExecutor_eq (s : State α) : s.withExecutor.executor = some s.getExecutor := by
  unfold State.withExecutor State.getExecutor
  split_ifs with husable
  · cases he : s.executor with
    | none =>
      unfold State.usable at husable
      rw [he] at husable
      cases husable
    | some e => rfl
  · rfl

theorem withExecutor_rest (s : State α) :
    s.withExecutor.jobs = s.jobs ∧ s.withExecutor.future = s.future ∧
      s.withExecutor.tasks = s.tasks := by
  unfold State.withExecutor
  split_ifs
  · exact ⟨rfl, rfl, rfl⟩
  · exact ⟨rfl, rfl, rfl⟩

/-- No operation of the current executor is left when the worker is not busy. -/
theorem idle (h : Inv s) (hbusy : s.busy = none)
    (hsettled : ∀ e, s.executor = some e → s.winding e = false) (p : ℕ) (job : Job α)
    (hp : s.jobs[p]? = some job) (hdone : job.done = false) : job.executor ≠ s.getExecutor := by
  intro he
  unfold State.getExecutor at he
  split_ifs at he with husable
  · unfold State.usable at husable
    cases hexec : s.executor with
    | none =>
      rw [hexec] at husable
      cases husable
    | some e =>
      rw [hexec, Option.getD_some] at he
      rw [hexec] at husable
      subst he
      obtain hcur | hstop | hwind := h.alone p job hp hdone hexec
      · unfold State.busy at hbusy
        rw [hcur] at hbusy
        simp [hp, hdone] at hbusy
      · simp [hstop] at husable
      · exact absurd (hwind.symm.trans (hsettled _ hexec)) (by decide)
  · exact absurd (h.placed p job hp) (by omega)

theorem start [DecidableEq α] (h : Inv s) {a : α} (timeoutSecs : ℚ) (hbusy : s.busy = none)
    (hdegraded : a ∉ s.degraded) (hsettled : ∀ e, s.executor = some e → s.winding e = false) :
    Inv (s.start a timeoutSecs) := by
  have hwith := h.withExecutor
  have hidle := h.idle hbusy hsettled
  obtain ⟨hjobs, -, -⟩ := withExecutor_rest s
  have hcases : ∀ (p : ℕ) (job : Job α), (s.start a timeoutSecs).jobs[p]? = some job →
      p < s.jobs.length ∧ s.jobs[p]? = some job ∨
        p = s.jobs.length ∧ job.executor = s.getExecutor ∧ job.degraded = false := by
    intro p job hp
    change (s.jobs ++ [_])[p]? = some job at hp
    rw [List.getElem?_append] at hp
    split_ifs at hp with hlt
    · exact Or.inl ⟨hlt, hp⟩
    · right
      rw [List.getElem?_singleton] at hp
      split_ifs at hp with hzero
      cases hp
      refine ⟨by omega, rfl, ?_⟩
      simpa using hdegraded
  refine ⟨?_, hwith.threshold, ?_, hwith.fresh, ?_, hwith.windable, hwith.ailing, ?_⟩
  · intro p q job job' hp hq hdone hdone' hexec
    obtain ⟨-, hp⟩ | ⟨hp, hpe, -⟩ := hcases p job hp
    · obtain ⟨-, hq⟩ | ⟨-, hqe, -⟩ := hcases q job' hq
      · exact h.apart p q job job' hp hq hdone hdone' hexec
      · exact absurd (hexec.trans hqe) (hidle p job hp hdone)
    · obtain ⟨-, hq⟩ | ⟨hq, -, -⟩ := hcases q job' hq
      · exact absurd (hexec.symm.trans hpe) (hidle q job' hq hdone')
      · rw [hp, hq]
  · intro p job hp
    obtain ⟨-, hp⟩ | ⟨-, -, hdeg⟩ := hcases p job hp
    · exact h.refused p job hp
    · exact hdeg
  · intro p job hp
    obtain ⟨-, hp⟩ | ⟨-, hpe, -⟩ := hcases p job hp
    · exact hwith.placed p job (hjobs ▸ hp)
    · rw [hpe]
      exact hwith.fresh _ (getExecutor_eq s)
  · intro p job hp hdone hexec
    change s.withExecutor.executor = some job.executor at hexec
    obtain ⟨-, hp⟩ | ⟨hp, -, -⟩ := hcases p job hp
    · rw [getExecutor_eq s] at hexec
      exact absurd (Option.some.inj hexec).symm (hidle p job hp hdone)
    · left
      rw [hp]
      rfl

theorem finish_job {p q : ℕ} {job' : Job α} (hq : (s.finish p).jobs[q]? = some job') :
    ∃ job, s.jobs[q]? = some job ∧ job'.executor = job.executor ∧ job'.degraded = job.degraded ∧
      (job'.done = false → job = job') := by
  change (s.jobs.modify p _)[q]? = some job' at hq
  rw [List.getElem?_modify] at hq
  obtain ⟨job, hjob, rfl⟩ := Option.map_eq_some_iff.mp hq
  refine ⟨job, hjob, ?_⟩
  split_ifs with hpq
  · refine ⟨rfl, rfl, fun hdone => ?_⟩
    cases hdone
  · exact ⟨rfl, rfl, fun _ => rfl⟩

theorem finish (h : Inv s) (p : ℕ) : Inv (s.finish p) := by
  refine ⟨?_, h.threshold, ?_, h.fresh, ?_, h.windable, h.ailing, ?_⟩
  · intro q r job job' hq hr hdone hdone' hexec
    obtain ⟨k, hk, -, -, hsame⟩ := finish_job hq
    obtain ⟨k', hk', -, -, hsame'⟩ := finish_job hr
    obtain rfl := hsame hdone
    obtain rfl := hsame' hdone'
    exact h.apart q r k k' hk hk' hdone hdone' hexec
  · intro q job hq
    obtain ⟨k, hk, -, hdeg, -⟩ := finish_job hq
    exact hdeg.trans (h.refused q k hk)
  · intro q job hq
    obtain ⟨k, hk, hexec, -, -⟩ := finish_job hq
    exact hexec.trans_lt (h.placed q k hk)
  · intro q job hq hdone hexec
    obtain ⟨k, hk, -, -, hsame⟩ := finish_job hq
    obtain rfl := hsame hdone
    exact h.alone q k hk hdone hexec

theorem finish_done (s : State α) (p : ℕ) (job : Job α) (hjob : (s.finish p).jobs[p]? = some job) :
    job.done = true := by
  change (s.jobs.modify p _)[p]? = some job at hjob
  rw [List.getElem?_modify_eq] at hjob
  obtain ⟨k, -, rfl⟩ := Option.map_eq_some_iff.mp hjob
  rfl

theorem clear_tasks [DecidableEq α] (s : State α) (p : ℕ) : (s.clear p).tasks = s.tasks := by
  unfold State.clear
  split_ifs
  · split <;> rfl
  · rfl

theorem clear [DecidableEq α] (h : Inv s) {p : ℕ}
    (hdone : ∀ job, s.jobs[p]? = some job → job.done = true) : Inv (s.clear p) := by
  have halone : ∀ (q : ℕ) (job : Job α), s.jobs[q]? = some job → job.done = false →
      s.executor = some job.executor → s.future = some p →
        none = some q ∨ job.executor ∈ s.stopped ∨ s.winding job.executor = true := by
    intro q job hq hundone hexec hp
    obtain hcur | hgone := h.alone q job hq hundone hexec
    · obtain rfl : p = q := Option.some.inj (hp.symm.trans hcur)
      exact absurd (hundone.symm.trans (hdone job hq)) Bool.false_ne_true
    · exact Or.inr hgone
  unfold State.clear
  split_ifs with hp
  · split
    · exact ⟨h.apart, h.threshold, h.refused, h.fresh, h.placed, h.windable, h.ailing,
        fun q job hq hundone hexec => halone q job hq hundone hexec hp⟩
    · exact ⟨h.apart, h.threshold, h.refused, h.fresh, h.placed, h.windable, h.ailing,
        fun q job hq hundone hexec => halone q job hq hundone hexec hp⟩
  · exact h

theorem drop (h : Inv s) {task : Task α} (htask : ∀ e, task.winds e = true → s.executor = some e)
    {orphans timeoutCounts : α → ℕ} (horphans : ∀ a, orphans a < executorOrphanThreshold)
    (future : Option ℕ) (degraded : List α) :
    Inv { s with
      future := future, degraded := degraded, orphans := orphans, timeoutCounts := timeoutCounts
      executor := none, tasks := s.tasks ++ [task] } where
  apart := h.apart
  threshold := horphans
  refused := h.refused
  fresh e he := by cases he
  placed := h.placed
  windable e he := by
    change (s.tasks ++ [task]).any (Task.winds e) = true at he
    rw [List.any_append, Bool.or_eq_true] at he
    obtain he | he := he
    · exact h.windable e he
    · exact h.fresh e (htask e (by simpa using he))
  ailing e he := by cases he
  alone p job _ _ he := by cases he

section Step

variable [DecidableEq α] {limits : Limits}

theorem reset (h : Inv s) {a : α} {count : ℕ} {retry : Option α}
    (htask : s.tasks[i]? = some (.reset a count retry)) :
    Inv ((s.resetFor limits a count retry).1.advance i (s.resetFor limits a count retry).2) := by
  have hold : ∀ e, (Task.reset a count retry).winds e = false := fun _ => rfl
  have hretry : ∀ e, (retry.map Task.recheck).any (Task.winds e) = false := by
    intro e
    cases retry <;> rfl
  have hrest : ∀ e, s.winding e = (s.tasks.eraseIdx i).any (Task.winds e) := by
    intro e
    rw [winding_of_task htask, hold, Bool.or_false]
  unfold State.resetFor
  split_ifs with hdegraded hcount hthreshold husable
  · exact h.advance_plain htask hold hretry
  · exact h.advance_plain htask hold hretry
  · -- the address is given up: what runs on the executor is to be shut down with it
    have hwind : ∀ e, (s.tasks.set i (.cancel s.future s.executor none retry)).any (Task.winds e) =
        (s.winding e || decide (s.executor = some e)) := by
      intro e
      rw [any_set_of_getElem? _ htask, hrest]
      rfl
    refine ⟨h.apart, h.threshold, h.refused, h.fresh, h.placed, ?_, ?_, ?_⟩
    · intro e he
      change (s.tasks.set i _).any (Task.winds e) = true at he
      rw [hwind, Bool.or_eq_true, decide_eq_true_eq] at he
      exact he.elim (h.windable e) (h.fresh e)
    · intro e _ _
      exact List.cons_ne_nil a s.degraded
    · intro p job _ _ hexec
      right
      right
      change (s.tasks.set i _).any (Task.winds job.executor) = true
      rw [hwind, Bool.or_eq_true, decide_eq_true_eq]
      exact Or.inr hexec
  · have hwind : ∀ e, (s.tasks.set i
        (.cancel (s.busy.map Prod.fst) s.executor (some a) retry)).any (Task.winds e) =
          (s.winding e || decide (s.executor = some e)) := by
      intro e
      rw [any_set_of_getElem? _ htask, hrest]
      rfl
    have hlt : ∀ e, (s.tasks.set i
        (.cancel (s.busy.map Prod.fst) s.executor (some a) retry)).any (Task.winds e) = true →
          e < s.nextExecutor := by
      intro e he
      rw [hwind, Bool.or_eq_true, decide_eq_true_eq] at he
      exact he.elim (h.windable e) (h.fresh e)
    refine ⟨h.apart, ?_, h.refused, ?_, ?_, ?_, ?_, ?_⟩
    · intro b
      change Function.update s.orphans a (s.orphans a + 1) b < executorOrphanThreshold
      rw [Function.update_apply]
      split_ifs
      · omega
      · exact h.threshold b
    · intro e he
      cases he
      exact Nat.lt_succ_self _
    · intro p job hp
      exact Nat.lt_succ_of_lt (h.placed p job hp)
    · intro e he
      exact Nat.lt_succ_of_lt (hlt e he)
    · intro e he hw
      cases he
      exact absurd (hlt _ hw) (Nat.lt_irrefl _)
    · intro p job hp _ hexec
      have hplaced := h.placed p job hp
      rw [← Option.some.inj hexec] at hplaced
      exact absurd hplaced (Nat.lt_irrefl _)
  · have hwind : ∀ e, (s.tasks.set i
        (.cancel (s.busy.map Prod.fst) none (some a) retry)).any (Task.winds e) = s.winding e := by
      intro e
      rw [any_set_of_getElem? _ htask, hrest]
      exact Bool.or_false _
    refine ⟨h.apart, h.threshold, h.refused, ?_, ?_, ?_, ?_, ?_⟩
    · intro e he
      cases he
      exact Nat.lt_succ_self _
    · intro p job hp
      exact Nat.lt_succ_of_lt (h.placed p job hp)
    · intro e he
      exact Nat.lt_succ_of_lt (h.windable e ((hwind e).symm.trans he))
    · intro e he hw
      cases he
      exact absurd (h.windable _ ((hwind _).symm.trans hw)) (Nat.lt_irrefl _)
    · intro p job hp _ hexec
      have hplaced := h.placed p job hp
      rw [← Option.some.inj hexec] at hplaced
      exact absurd hplaced (Nat.lt_irrefl _)

theorem step {a : Act α} (h : Inv s) (hsettled : Settled s a)
    (hs : Ble.step limits s a = some s') : Inv s' := by
  have hplain : ∀ b : Option α, ∀ e, (b.map Task.recheck).any (Task.winds e) = false := by
    intro b e
    cases b <;> rfl
  cases a with
  | tick t =>
    rw [step_tick hs]
    exact h.congr (fun _ he => he) fun _ he => he
  | call b =>
    obtain ⟨task, rfl, hcases⟩ := step_call hs
    refine h.push _ fun e => ?_
    rcases hcases with rfl | rfl | ⟨p, job, -, rfl⟩ <;> rfl
  | recheck i =>
    obtain ⟨b, htask, rfl⟩ := step_recheck hs
    refine h.advance_plain htask (fun _ => rfl) fun e => ?_
    split_ifs <;> rfl
  | submit i timeoutSecs fails =>
    obtain ⟨b, htask, rfl | rfl | ⟨hbusy, hdegraded, rfl⟩⟩ := step_submit hs
    · exact h.advance_plain htask (fun _ => rfl) fun _ => rfl
    · rw [← (withExecutor_rest s).2.2] at htask
      exact h.withExecutor.advance_plain htask (fun _ => rfl) fun _ => rfl
    · have hstart := h.start timeoutSecs hbusy hdegraded (hsettled b htask hdegraded)
      rw [← (withExecutor_rest s).2.2] at htask
      exact hstart.advance_plain htask (fun _ => rfl) fun _ => rfl
  | finish p =>
    rw [step_finish hs]
    exact h.finish p
  | clear p =>
    obtain ⟨hdone, rfl⟩ := step_clear hs
    exact h.clear hdone
  | resolve i =>
    obtain ⟨⟨b, p, htask⟩, rfl⟩ := step_resolve hs
    exact h.advance_plain htask (fun _ => rfl) fun _ => rfl
  | giveUp i timedOut cancelled =>
    obtain ⟨b, p, htask, rfl | ⟨next, hnext, rfl⟩⟩ := step_giveUp hs
    · have htask' : ((s.finish p).clear p).tasks[i]? = some (.waiting b p) := by
        rw [clear_tasks]
        exact htask
      exact ((h.finish p).clear (finish_done s p)).advance_plain htask' (fun _ => rfl) fun _ => rfl
    · have harmed : Inv { s with armed := s.armed ++ [(p, s.now)] } :=
        h.congr (fun _ he => he) fun _ he => he
      refine harmed.advance_plain htask (fun _ => rfl) fun e => ?_
      cases next with
      | none => rfl
      | some t =>
        rw [hnext t rfl]
        rfl
  | record i =>
    obtain ⟨b, next, count, timeoutCounts, htask, rfl⟩ := step_record hs
    have hcounts : Inv { s with timeoutCounts := timeoutCounts } :=
      h.congr (fun _ he => he) fun _ he => he
    exact hcounts.advance_plain htask (fun _ => rfl) fun _ => rfl
  | reset i =>
    obtain ⟨b, count, next, htask, rfl⟩ := step_reset hs
    exact h.reset htask
  | cancel i cancelled =>
    obtain ⟨future, executor, zeroed, next, htask, t, rfl | ⟨p, rfl⟩, rfl⟩ := step_cancel hs
    · exact h.advance htask (fun _ he => he) fun _ he => Or.inr he
    · exact (h.finish p).advance htask (fun _ he => he) fun _ he => Or.inr he
  | shutdown i =>
    obtain ⟨executor, zeroed, next, rest, htask, hrest, rfl⟩ := step_shutdown hs
    have hstopped : Inv { s with stopped := executor.toList ++ s.stopped } :=
      h.congr (fun _ he => he) fun e he => he.imp_left (List.mem_append_right _)
    refine hstopped.advance htask (fun e he => ?_) fun e he => Or.inl ?_
    · rcases hrest with rfl | ⟨b, -, rfl⟩
      · rw [hplain] at he
        cases he
      · cases he
    · apply List.mem_append_left
      rw [Option.mem_toList]
      simpa [Task.winds] using he
  | zero i =>
    obtain ⟨b, next, timeoutCounts, htask, rfl⟩ := step_zero hs
    have hcounts : Inv { s with timeoutCounts := timeoutCounts } :=
      h.congr (fun _ he => he) fun _ he => he
    exact hcounts.advance_plain htask (fun _ => rfl) (hplain next)
  | fire p t =>
    obtain ⟨job, armed, ts, -, hts, rfl⟩ := step_fire hs
    have hpush := h.push ts fun e => by
      rw [List.any_eq_false]
      intro task htask
      rw [hts task htask]
      exact Bool.false_ne_true
    exact hpush.congr (fun _ he => he) fun _ he => he
  | cleanup i =>
    obtain ⟨b, p, next, htask, hnext, rfl⟩ := step_cleanup hs
    refine h.advance_plain htask (fun _ => rfl) fun e => ?_
    cases next with
    | none => rfl
    | some t =>
      rw [hnext t rfl]
      rfl
  | lost =>
    obtain rfl | ⟨p, timeoutCounts, rfl⟩ := step_lost hs
    · exact h
    · exact h.drop (fun e he => by simpa [Task.winds] using he) h.threshold none s.degraded
  | recover address =>
    obtain rfl | ⟨degraded, orphans, -, horphans, rfl⟩ := step_recover hs
    · exact h
    · exact h.drop (fun e he => by simpa [Task.winds] using he)
        (fun c => (horphans c).trans_lt (h.threshold c)) s.future degraded

end Step

end Inv

end MMRelay.Executor.Ble
