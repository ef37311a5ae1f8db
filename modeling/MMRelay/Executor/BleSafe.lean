import MMRelay.Executor.BleInv

/-!
# Runs of the BLE worker

* `OfOne`: all parties are for one address; `OfOne.settled`: then every step is settled;
* `sound_run`: if all steps are settled, no operation ever waits for another one;
* **`ble_sound`**: with one address it never does;
* `twoAddresses_behind`: with two addresses it can.
-/

namespace MMRelay.Executor.Ble

variable {α : Type} {s s' : State α} {i : ℕ} {old : Task α} {next : Option (Task α)}

/-! ## One address -/

/-- All that the task does is for this address. -/
def Task.IsFor (a : α) : Task α → Prop
  | recheck b => b = a
  | submission b => b = a
  | waiting b _ => b = a
  | record b next => b = a ∧ ∀ c ∈ next, c = a
  | reset b _ next => b = a ∧ ∀ c ∈ next, c = a
  | cancel _ _ zeroed next => (∀ c ∈ zeroed, c = a) ∧ ∀ c ∈ next, c = a
  | shutdown _ zeroed next => (∀ c ∈ zeroed, c = a) ∧ ∀ c ∈ next, c = a
  | zero b next => b = a ∧ ∀ c ∈ next, c = a
  | cleanup b _ => b = a

/-- All parties and operations are for one address. -/
structure OfOne (a : α) (s : State α) : Prop where
  tasks : ∀ t ∈ s.tasks, t.IsFor a
  jobs : ∀ job ∈ s.jobs, job.address = a
  degraded : ∀ b ∈ s.degraded, b = a

namespace OfOne

variable {a : α}

theorem isFor_of_task (h : OfOne a s) (htask : s.tasks[i]? = some old) : old.IsFor a :=
  h.tasks old (List.mem_of_getElem? htask)

theorem advance (h : OfOne a s) (hnext : ∀ t ∈ next, t.IsFor a) : OfOne a (s.advance i next) := by
  cases next with
  | none => exact { h with tasks := fun t ht => h.tasks t (List.mem_of_mem_eraseIdx ht) }
  | some t =>
    refine { h with tasks := fun t' ht' => ?_ }
    obtain hold | rfl := List.mem_or_eq_of_mem_set ht'
    · exact h.tasks t' hold
    · exact hnext t' rfl

theorem push (h : OfOne a s) {ts : List (Task α)} (hts : ∀ t ∈ ts, t.IsFor a) :
    ∀ t ∈ s.tasks ++ ts, t.IsFor a := by
  intro t ht
  exact (List.mem_append.mp ht).elim (h.tasks t) (hts t)

theorem push_one (h : OfOne a s) {task : Task α} (htask : task.IsFor a) :
    ∀ t ∈ s.tasks ++ [task], t.IsFor a :=
  h.push fun _ ht => List.mem_singleton.mp ht ▸ htask

theorem recheck {retry : Option α} (hretry : ∀ c ∈ retry, c = a) :
    ∀ t ∈ retry.map Task.recheck, t.IsFor a := by
  intro t ht
  obtain ⟨c, hc, rfl⟩ := Option.map_eq_some_iff.mp ht
  exact hretry c hc

theorem finish (h : OfOne a s) (p : ℕ) : OfOne a (s.finish p) := by
  refine { h with jobs := fun job hjob => ?_ }
  obtain ⟨q, hq⟩ := List.mem_iff_getElem?.mp hjob
  change (s.jobs.modify p _)[q]? = some job at hq
  rw [List.getElem?_modify] at hq
  obtain ⟨k, hk, rfl⟩ := Option.map_eq_some_iff.mp hq
  have haddress := h.jobs k (List.mem_of_getElem? hk)
  split_ifs
  · exact haddress
  · exact haddress

theorem busy_address (h : OfOne a s) {p : ℕ} {job : Job α} (hbusy : s.busy = some (p, job)) :
    job.address = a := by
  unfold State.busy at hbusy
  split at hbusy
  · split at hbusy
    · next k hk =>
      split_ifs at hbusy
      cases hbusy
      exact h.jobs job (List.mem_of_getElem? hk)
    · cases hbusy
  · cases hbusy

theorem withExecutor (h : OfOne a s) : OfOne a s.withExecutor := by
  unfold State.withExecutor
  split_ifs
  · exact h
  · exact ⟨h.tasks, h.jobs, h.degraded⟩

/-- An executor that is given up is for the only address, which is degraded then. -/
theorem settled (h : OfOne a s) (hinv : Inv s) (act : Act α) : Settled s act := by
  cases act with
  | submit i timeoutSecs fails =>
    intro b htask hb e he
    by_contra hwinds
    rw [Bool.not_eq_false] at hwinds
    obtain ⟨c, hc⟩ := List.exists_mem_of_ne_nil _ (hinv.ailing e he hwinds)
    obtain rfl : b = a := h.isFor_of_task htask
    exact hb (h.degraded c hc ▸ hc)
  | _ => trivial

variable [DecidableEq α] {limits : Limits}

theorem clear (h : OfOne a s) (p : ℕ) : OfOne a (s.clear p) := by
  unfold State.clear
  split_ifs
  · split
    · exact ⟨h.tasks, h.jobs, h.degraded⟩
    · exact ⟨h.tasks, h.jobs, h.degraded⟩
  · exact h

theorem start (h : OfOne a s) (timeoutSecs : ℚ) : OfOne a (s.start a timeoutSecs) := by
  refine { h.withExecutor with jobs := fun job hjob => ?_ }
  obtain hold | hnew := List.mem_append.mp hjob
  · exact h.jobs job hold
  · rw [List.mem_singleton.mp hnew]

theorem resetFor (h : OfOne a s) (limits : Limits) (count : ℕ) {retry : Option α}
    (hretry : ∀ c ∈ retry, c = a) :
    OfOne a (s.resetFor limits a count retry).1 ∧
      ∀ t ∈ (s.resetFor limits a count retry).2, t.IsFor a := by
  have hcancel : ∀ (zeroed future executor : Option _), (∀ c ∈ zeroed, c = a) →
      ∀ t ∈ some (Task.cancel future executor zeroed retry), t.IsFor a := by
    intro zeroed future executor hzeroed t ht
    cases ht
    exact ⟨hzeroed, hretry⟩
  have hself : ∀ c ∈ some a, c = a := fun c hc => (Option.some.inj hc).symm
  unfold State.resetFor
  split_ifs
  · exact ⟨h, recheck hretry⟩
  · exact ⟨h, recheck hretry⟩
  · refine ⟨{ h with degraded := fun b hb => ?_ }, hcancel none _ _ (fun c hc => by cases hc)⟩
    exact (List.mem_cons.mp hb).elim id (h.degraded b)
  · exact ⟨⟨h.tasks, h.jobs, h.degraded⟩, hcancel (some a) _ _ hself⟩
  · exact ⟨⟨h.tasks, h.jobs, h.degraded⟩, hcancel (some a) _ _ hself⟩

theorem step {act : Act α} (h : OfOne a s) (hact : act.IsFor a)
    (hs : Ble.step limits s act = some s') : OfOne a s' := by
  have hnone : ∀ c ∈ (none : Option α), c = a := fun c hc => by cases hc
  cases act with
  | tick t =>
    rw [step_tick hs]
    exact ⟨h.tasks, h.jobs, h.degraded⟩
  | call b =>
    obtain rfl : b = a := hact
    obtain ⟨task, rfl, hcases⟩ := step_call hs
    refine ⟨h.push_one ?_, h.jobs, h.degraded⟩
    rcases hcases with rfl | rfl | ⟨p, job, hbusy, rfl⟩
    · exact rfl
    · exact rfl
    · exact ⟨h.busy_address hbusy, fun c hc => (Option.some.inj hc).symm⟩
  | recheck i =>
    obtain ⟨b, htask, rfl⟩ := step_recheck hs
    obtain rfl : b = a := h.isFor_of_task htask
    refine h.advance fun t ht => ?_
    split_ifs at ht
    · cases ht
    · cases ht
      rfl
  | submit i timeoutSecs fails =>
    obtain ⟨b, htask, hcases⟩ := step_submit hs
    obtain rfl : b = a := h.isFor_of_task htask
    rcases hcases with rfl | rfl | ⟨-, -, rfl⟩
    · exact h.advance fun t ht => by cases ht
    · exact h.withExecutor.advance fun t ht => by cases ht
    · refine (h.start timeoutSecs).advance fun t ht => ?_
      cases ht
      rfl
  | finish p =>
    rw [step_finish hs]
    exact h.finish p
  | clear p =>
    rw [(step_clear hs).2]
    exact h.clear p
  | resolve i =>
    rw [(step_resolve hs).2]
    exact h.advance fun t ht => by cases ht
  | giveUp i timedOut cancelled =>
    obtain ⟨b, p, htask, rfl | ⟨next, hnext, rfl⟩⟩ := step_giveUp hs
    · exact ((h.finish p).clear p).advance fun t ht => by cases ht
    · have harmed : OfOne a { s with armed := s.armed ++ [(p, s.now)] } :=
        ⟨h.tasks, h.jobs, h.degraded⟩
      refine harmed.advance fun t ht => ?_
      rw [hnext t ht]
      exact ⟨h.isFor_of_task htask, hnone⟩
  | record i =>
    obtain ⟨b, next, count, timeoutCounts, htask, rfl⟩ := step_record hs
    have hcounts : OfOne a { s with timeoutCounts := timeoutCounts } :=
      ⟨h.tasks, h.jobs, h.degraded⟩
    obtain ⟨hb, hnext⟩ := h.isFor_of_task htask
    refine hcounts.advance fun t ht => ?_
    cases ht
    exact ⟨hb, hnext⟩
  | reset i =>
    obtain ⟨b, count, next, htask, rfl⟩ := step_reset hs
    obtain ⟨rfl, hnext⟩ := h.isFor_of_task htask
    obtain ⟨hstate, htask⟩ := h.resetFor limits count hnext
    exact hstate.advance htask
  | cancel i cancelled =>
    obtain ⟨future, executor, zeroed, next, htask, t, ht, rfl⟩ := step_cancel hs
    have hstate : OfOne a t := by
      rcases ht with rfl | ⟨p, rfl⟩
      · exact h
      · exact h.finish p
    obtain ⟨hzeroed, hnext⟩ := h.isFor_of_task htask
    refine hstate.advance fun t ht => ?_
    cases ht
    exact ⟨hzeroed, hnext⟩
  | shutdown i =>
    obtain ⟨executor, zeroed, next, rest, htask, hrest, rfl⟩ := step_shutdown hs
    obtain ⟨hzeroed, hnext⟩ := h.isFor_of_task htask
    have hstopped : OfOne a { s with stopped := executor.toList ++ s.stopped } :=
      ⟨h.tasks, h.jobs, h.degraded⟩
    refine hstopped.advance fun t ht => ?_
    rcases hrest with rfl | ⟨b, hb, rfl⟩
    · exact recheck hnext t ht
    · cases ht
      exact ⟨hzeroed b hb, hnext⟩
  | zero i =>
    obtain ⟨b, next, timeoutCounts, htask, rfl⟩ := step_zero hs
    have hcounts : OfOne a { s with timeoutCounts := timeoutCounts } :=
      ⟨h.tasks, h.jobs, h.degraded⟩
    exact hcounts.advance (recheck (h.isFor_of_task htask).2)
  | fire p t =>
    obtain ⟨job, armed, ts, hjob, hts, rfl⟩ := step_fire hs
    refine ⟨h.push fun task htask => ?_, h.jobs, h.degraded⟩
    rw [hts task htask]
    exact h.jobs job (List.mem_of_getElem? hjob)
  | cleanup i =>
    obtain ⟨b, p, next, htask, hnext, rfl⟩ := step_cleanup hs
    refine h.advance fun t ht => ?_
    rw [hnext t ht]
    exact ⟨h.isFor_of_task htask, hnone⟩
  | lost =>
    obtain rfl | ⟨p, timeoutCounts, rfl⟩ := step_lost hs
    · exact h
    · exact ⟨h.push_one ⟨hnone, hnone⟩, h.jobs, h.degraded⟩
  | recover address =>
    obtain rfl | ⟨degraded, orphans, hsub, -, rfl⟩ := step_recover hs
    · exact h
    · exact ⟨h.push_one ⟨hnone, hnone⟩, h.jobs, fun b hb => h.degraded b (hsub hb)⟩

end OfOne

/-! ## The runs -/

theorem inv_init (now : ℚ) : Inv ({ now := now } : State α) where
  apart p q job job' hp := by cases hp
  threshold a := by
    change 0 < executorOrphanThreshold
    decide
  refused p job hp := by cases hp
  fresh e he := by cases he
  placed p job hp := by cases hp
  windable e he := by cases he
  ailing e he := by cases he
  alone p job hp := by cases hp

section Runs

variable [DecidableEq α]

/-- If no operation goes to an executor that is given up, no operation ever waits for another. -/
theorem sound_run (limits : Limits) (now : ℚ) (acts : List (Act α))
    (h : AllSteps (step limits) Settled { now := now } acts) :
    Visited (step limits) Sound { now := now } acts :=
  visited_of_invariant (fun _ _ _ hs hsettled hstep => hs.step hsettled hstep)
    (fun _ hs => hs.sound) (inv_init now) h

/-- **The BLE worker, for one address.** Whatever attempts, losses, watchdogs and operations that
hang do, and in whatever order, no operation of the worker is ever in line behind another one, the
orphans stay below the bound, and nothing is submitted while the address is degraded. -/
theorem ble_sound (limits : Limits) (now : ℚ) (a : α) (acts : List (Act α))
    (h : ∀ act ∈ acts, act.IsFor a) : Visited (step limits) Sound { now := now } acts := by
  have hall : AllSteps (step limits) (fun _ act => act.IsFor a) { now := now } acts :=
    allSteps_of_mem (fun act hact _ => h act hact) _
  have hone : OfOne a ({ now := now } : State α) :=
    ⟨fun t ht => (by cases ht), fun job hjob => (by cases hjob), fun b hb => (by cases hb)⟩
  exact visited_of_invariant (I := fun s => Inv s ∧ OfOne a s)
    (fun s act s' hs hact hstep =>
      ⟨hs.1.step (hs.2.settled hs.1 act) hstep, hs.2.step hact hstep⟩)
    (fun s hs => hs.1.sound) ⟨inv_init now, hone⟩ hall

end Runs

/-- The first timeout replaces the executor. -/
def eager : Limits := ⟨1, 2, 120⟩

/-- An operation for device 0 hangs and its executor is replaced. -/
def hangs : List (Act ℕ) :=
  [.call 0, .submit 0 30 false, .giveUp 0 true false, .record 0, .reset 0, .cancel 0 false,
    .shutdown 0, .zero 0]

theorem ble_sound_hangs :
    Visited (step eager) Sound { now := 0 } (hangs ++ [.call 0, .submit 0 30 false, .finish 1]) :=
  ble_sound eager 0 0 _ (by simp [hangs, Act.IsFor])

/-- The fifth operation of device 0 that hangs; device 1 submits before its executor is shut down. -/
def twoAddresses : List (Act ℕ) :=
  hangs ++ hangs ++ hangs ++ hangs ++
    [.call 0, .submit 0 30 false, .giveUp 0 true false, .record 0, .reset 0, .call 1,
      .submit 1 30 false]

/-- With two addresses an operation can be in line behind one that hangs. -/
theorem twoAddresses_behind : ¬ Visited (step eager) Sound { now := 0 } twoAddresses := by
  intro hv
  have hrun : (runActs (step eager) { now := 0 } twoAddresses).map
      (fun s => s.jobs.map fun job => (job.executor, job.done)) =
        some [(0, false), (1, false), (2, false), (3, false), (4, false), (4, false)] := by
    decide +kernel
  obtain ⟨t, ht, hjobs⟩ := Option.map_eq_some_iff.mp hrun
  have hplace : ∀ p : ℕ, (t.jobs[p]?).map (fun job : Job ℕ => (job.executor, job.done)) =
      [(0, false), (1, false), (2, false), (3, false), (4, false), (4, false)][p]? := by
    intro p
    rw [← hjobs, List.getElem?_map]
  obtain ⟨job, hjob, hpair⟩ := Option.map_eq_some_iff.mp (hplace 4)
  obtain ⟨job', hjob', hpair'⟩ := Option.map_eq_some_iff.mp (hplace 5)
  obtain ⟨he, hd⟩ := Prod.mk.inj hpair
  obtain ⟨he', hd'⟩ := Prod.mk.inj hpair'
  exact absurd ((hv.last ht).apart 4 5 job job' hjob hjob' hd hd' (he.trans he'.symm)) (by decide)

end MMRelay.Executor.Ble
