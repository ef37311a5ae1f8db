import MMRelay.Queue.Lifecycle

/-!
# One processor, and no executor that is shutting down

A finaliser tests its events outside the lock and clears `_stopping` under it, whatever `stop()`
call the queue is in by then. `Orderly` rules out the two steps that go wrong.

* `Orderly`: no finaliser of an earlier call runs its lock-held section while a later call is in
  progress, and `task_cleanup_complete` is set only once the task is done.
* `Inv`, the invariant: the queue is running, stopping or idle, and each of the three says where
  the unfinished task and the executor are.
* **`orderly_run`**: in every run of orderly steps at most one processor task is unfinished, and
  `start()` answers `True` only with an executor that no `stop()` has taken.
* `lateFinaliser`: the run in which a late finaliser of a first call lets `start()` succeed in
  the middle of a second one.
-/

namespace MMRelay.Queue

/-- The task of the call is done. -/
def taskIsDone (s : State) (c : StopCall) : Bool :=
  match c.task with
  | none => true
  | some t => decide (t ∉ s.live)

/-- The operation, performed by a thread of call `g`, is not one of the two that break the
lifecycle. -/
def orderlyOp (s : State) (g : ℕ) (c : StopCall) : Op → Bool
  | .finalizeLocked => !(s.stopping && !s.stopFailed) || g + 1 == s.stops.length
  | .setTaskCleanupComplete => taskIsDone s c
  | _ => true

/-- The action is no operation of a thread, or an orderly one. -/
def orderlyAct (s : State) : Act → Bool
  | .thread i _ =>
    match nextOp s i with
    | some (th, c, op, _) => orderlyOp s th.gen c op
    | none => true
  | _ => true

/-- The step is orderly. -/
abbrev Orderly (s : State) (a : Act) : Prop := orderlyAct s a = true

theorem orderlyOp_finalize {s : State} {g : ℕ} {c : StopCall}
    (h : orderlyOp s g c .finalizeLocked = true) (hs : s.stopping = true)
    (hf : s.stopFailed = false) : g + 1 = s.stops.length := by
  simpa [orderlyOp, hs, hf] using h

theorem orderlyOp_setTaskCleanupComplete {s : State} {g : ℕ} {c : StopCall}
    (h : orderlyOp s g c .setTaskCleanupComplete = true) {t : ℕ} (ht : c.task = some t) :
    t ∉ s.live := by
  simpa [orderlyOp, taskIsDone, ht] using h

/-- The invariant of orderly runs. -/
structure Inv (s : State) : Prop where
  live_processor : ∀ t ∈ s.live, s.processorTask = some t
  live_nodup : s.live.Nodup
  live_lt : ∀ t ∈ s.live, t < s.nextTask
  task_lt : ∀ c ∈ s.stops, ∀ t, c.task = some t → t < s.nextTask
  processor_lt : ∀ t, s.processorTask = some t → t < s.nextTask
  exec_lt : ∀ c ∈ s.stops, ∀ e, c.execRef = some e → e < s.nextExec
  executor_lt : ∀ e, s.executor = some e → e < s.nextExec
  running : s.running = true → s.stopping = false ∧
    ∃ e, s.executor = some e ∧ ∀ c ∈ s.stops, c.execRef ≠ some e
  idle : s.running = false → s.stopping = false → s.executor = none ∧ s.live = []
  stopping : s.stopping = true → s.running = false ∧ ∃ n c e, s.stops.length = n + 1 ∧
    s.stops[n]? = some c ∧ s.executor = some e ∧ c.execRef = some e ∧
    (∀ t ∈ s.live, c.task = some t) ∧
    ∀ g c', s.stops[g]? = some c' → c'.execRef = some e → g = n
  cleanup : ∀ c ∈ s.stops, c.taskCleanupComplete = true → ∀ t, c.task = some t → t ∉ s.live
  finalising : ∀ th ∈ s.threads, Op.finalizeLocked ∈ th.code → ∃ c, s.stops[th.gen]? = some c ∧
    c.taskCleanupComplete = true ∧ c.executorCleanupComplete = true

theorem inv_init : Inv init := by
  constructor <;> simp [init]

variable {s : State}

theorem Inv.live_le_one (h : Inv s) : s.live.length ≤ 1 := by
  match hl : s.live with
  | [] => simp
  | [_] => simp
  | t :: u :: ts =>
    have ht := h.live_processor t (by simp [hl])
    have hu := h.live_processor u (by simp [hl])
    have hne : t ≠ u := by
      have := h.live_nodup
      rw [hl, List.nodup_cons] at this
      rintro rfl
      exact this.1 List.mem_cons_self
    rw [ht] at hu
    exact absurd (Option.some.inj hu) hne

theorem Inv.live_nil_of_inactive (h : Inv s) (ha : taskActive s = false) : s.live = [] := by
  rw [List.eq_nil_iff_forall_not_mem]
  intro t ht
  rw [taskActive, h.live_processor t ht] at ha
  simp [ht] at ha

/-! ## Lock-held sections -/

theorem Inv.clearProcessor (h : Inv s) (hl : s.live = []) : Inv { s with processorTask := none } where
  live_processor t ht := by simp [hl] at ht
  live_nodup := h.live_nodup
  live_lt := h.live_lt
  task_lt := h.task_lt
  processor_lt _ ht := by cases ht
  exec_lt := h.exec_lt
  executor_lt := h.executor_lt
  running := h.running
  idle := h.idle
  stopping := h.stopping
  cleanup := h.cleanup
  finalising := h.finalising

theorem Inv.setStopFailed (h : Inv s) (b : Bool) : Inv { s with stopFailed := b } where
  live_processor := h.live_processor
  live_nodup := h.live_nodup
  live_lt := h.live_lt
  task_lt := h.task_lt
  processor_lt := h.processor_lt
  exec_lt := h.exec_lt
  executor_lt := h.executor_lt
  running := h.running
  idle := h.idle
  stopping := h.stopping
  cleanup := h.cleanup
  finalising := h.finalising

theorem Inv.clearFailed (h : Inv s) : Inv (clearFailedStopStateIfRecovered s).2 := by
  unfold clearFailedStopStateIfRecovered
  split_ifs with h1 h2
  · exact h
  · exact h
  · simp only [Bool.or_eq_true, not_or, Bool.not_eq_true, Option.isSome_eq_false_iff,
      Option.isNone_iff_eq_none] at h2
    obtain ⟨⟨hr, ha⟩, he⟩ := h2
    have hs : s.stopping = false := by
      by_contra hst
      obtain ⟨-, n, c, e, -, -, hex, -⟩ := h.stopping (by simpa using hst)
      rw [he] at hex
      cases hex
    have hc := (h.clearProcessor (h.live_nil_of_inactive ha)).setStopFailed false
    simp only [hs] at hc
    exact hc

theorem Inv.createTask (h : Inv s) (hr : s.running = true) (hl : s.live = []) :
    Inv (createTask s) where
  live_processor t ht := by
    simp only [Queue.createTask, hl, List.mem_singleton] at ht
    rw [ht]; rfl
  live_nodup := by simp [Queue.createTask, hl]
  live_lt t ht := by
    simp only [Queue.createTask, hl, List.mem_singleton] at ht ⊢
    omega
  task_lt c hc t ht := Nat.lt_succ_of_lt (h.task_lt c hc t ht)
  processor_lt t ht := by
    cases ht
    exact Nat.lt_succ_self _
  exec_lt := h.exec_lt
  executor_lt := h.executor_lt
  running := h.running
  idle hr' := by
    change s.running = false at hr'
    rw [hr] at hr'; cases hr'
  stopping hs := by
    obtain ⟨hs', -⟩ := h.running hr
    change s.stopping = true at hs
    rw [hs'] at hs; cases hs
  cleanup c hc _ t ht hmem := by
    -- a task of an earlier call is older than the new one
    have := h.task_lt c hc t ht
    simp only [Queue.createTask, hl, List.mem_singleton] at hmem
    omega
  finalising := h.finalising

theorem Inv.ensureExecutor (h : Inv s) (hr : s.running = false) (hs : s.stopping = false) :
    Inv (ensureExecutor { s with running := true, stopLogged := false }) := by
  obtain ⟨he, hl⟩ := h.idle hr hs
  simp only [Queue.ensureExecutor, he]
  exact
    { live_processor := h.live_processor
      live_nodup := h.live_nodup
      live_lt := h.live_lt
      task_lt := h.task_lt
      processor_lt := h.processor_lt
      exec_lt := fun c hc e hce => Nat.lt_succ_of_lt (h.exec_lt c hc e hce)
      executor_lt := fun e hce => by cases hce; exact Nat.lt_succ_self _
      running := fun _ => ⟨hs, _, rfl, fun c hc hce => by
        have := h.exec_lt c hc _ hce
        omega⟩
      idle := fun hr' => by cases hr'
      stopping := fun hs' => by
        change s.stopping = true at hs'
        rw [hs] at hs'; cases hs'
      cleanup := h.cleanup
      finalising := h.finalising }

theorem Inv.start (h : Inv s) (loopRunning : Bool) : Inv (start s loopRunning).2 := by
  have hc := h.clearFailed
  unfold Queue.start
  simp only
  split_ifs with h1 h2 h3
  · exact hc
  · exact hc
  · exact hc
  · simp only [Bool.not_eq_true] at h2 h3
    have hi := hc.idle h2 h3
    have he := hc.ensureExecutor h2 h3
    refine he.createTask ?_ ?_
    · simp only [Queue.ensureExecutor, hi.1]
    · simp only [Queue.ensureExecutor, hi.1, hi.2]
  · simp only [Bool.not_eq_true] at h2 h3
    exact hc.ensureExecutor h2 h3

theorem Inv.ensureProcessorStarted (h : Inv s) (loopRunning : Bool) :
    Inv (ensureProcessorStarted s loopRunning) := by
  unfold Queue.ensureProcessorStarted
  by_cases ha : taskActive s = true
  · rw [if_pos ha]; exact h
  · have hl := h.live_nil_of_inactive (by simpa using ha)
    have hc := h.clearProcessor hl
    rw [if_neg ha]
    simp only
    split_ifs with h1
    · simp only [Bool.and_eq_true] at h1
      exact hc.createTask h1.1.1 hl
    · exact hc

theorem Inv.enqueueAdmission (h : Inv s) : Inv (enqueueAdmission s).2 := by
  have hc := h.clearFailed
  unfold Queue.enqueueAdmission
  simp only
  split_ifs <;> exact hc

theorem Inv.resetFailedStopState (h : Inv s) : Inv (resetFailedStopState s).2 := by
  unfold Queue.resetFailedStopState
  split_ifs
  · exact h
  · exact h
  · exact h.clearFailed

theorem Inv.stop (h : Inv s) (onLoopThread : Bool) : Inv (stop s onLoopThread) := by
  unfold Queue.stop
  by_cases hr : s.running = true
  · simp only [hr, Bool.not_true, Bool.false_eq_true, if_false]
    obtain ⟨hs, e, he, hfresh⟩ := h.running hr
    exact
      { live_processor := h.live_processor
        live_nodup := h.live_nodup
        live_lt := h.live_lt
        task_lt := fun c hc t ht => by
          rcases List.mem_append.mp hc with hc | hc
          · exact h.task_lt c hc t ht
          · rw [List.mem_singleton.mp hc] at ht
            exact h.processor_lt t ht
        processor_lt := h.processor_lt
        exec_lt := fun c hc e' he' => by
          rcases List.mem_append.mp hc with hc | hc
          · exact h.exec_lt c hc e' he'
          · rw [List.mem_singleton.mp hc] at he'
            exact h.executor_lt e' he'
        executor_lt := h.executor_lt
        running := fun hr' => by cases hr'
        idle := fun _ hs' => by cases hs'
        stopping := fun _ => by
          refine ⟨rfl, s.stops.length, _, e, by simp, List.getElem?_concat_length, he, he,
            h.live_processor, fun g c' hg hce => ?_⟩
          -- an earlier call does not hold the executor of the running queue
          by_contra hne
          rcases Nat.lt_or_ge g s.stops.length with hlt | hge
          · rw [List.getElem?_append_left hlt] at hg
            exact hfresh c' (List.mem_of_getElem? hg) hce
          · have := (List.getElem?_eq_some_iff.mp hg).1
            rw [List.length_append, List.length_singleton] at this
            omega
        cleanup := fun c hc hcl t ht => by
          rcases List.mem_append.mp hc with hc | hc
          · exact h.cleanup c hc hcl t ht
          · rw [List.mem_singleton.mp hc] at hcl ht
            rw [show s.processorTask = some t from ht] at hcl
            cases hcl
        finalising := fun th hth hop => by
          rcases List.mem_append.mp hth with hth | hth
          · obtain ⟨c, hc, hcl⟩ := h.finalising th hth hop
            exact ⟨c, List.getElem?_append_left (List.getElem?_eq_some_iff.mp hc).1 ▸ hc, hcl⟩
          · rw [List.mem_singleton.mp hth] at hop
            simp at hop }
  · simp only [Bool.not_eq_true] at hr
    simp only [hr, Bool.not_false, if_true]
    exact h

theorem Inv.eraseLive (h : Inv s) (t : ℕ) : Inv { s with live := s.live.erase t } where
  live_processor u hu := h.live_processor u (List.mem_of_mem_erase hu)
  live_nodup := h.live_nodup.erase t
  live_lt u hu := h.live_lt u (List.mem_of_mem_erase hu)
  task_lt := h.task_lt
  processor_lt := h.processor_lt
  exec_lt := h.exec_lt
  executor_lt := h.executor_lt
  running := h.running
  idle hr hs := by
    obtain ⟨he, hl⟩ := h.idle hr hs
    exact ⟨he, by simp [hl]⟩
  stopping hs := by
    obtain ⟨hr, n, c, e, hn, hc, he, hce, hl, hu⟩ := h.stopping hs
    exact ⟨hr, n, c, e, hn, hc, he, hce, fun u hu' => hl u (List.mem_of_mem_erase hu'), hu⟩
  cleanup c hc hcl u hu hmem := h.cleanup c hc hcl u hu (List.mem_of_mem_erase hmem)
  finalising := h.finalising

theorem Inv.endStop (h : Inv s) (hr : s.running = false) (hl : s.live = []) :
    Inv { s with executor := none, stopping := false } where
  live_processor := h.live_processor
  live_nodup := h.live_nodup
  live_lt := h.live_lt
  task_lt := h.task_lt
  processor_lt := h.processor_lt
  exec_lt := h.exec_lt
  executor_lt _ he := by cases he
  running hr' := by
    change s.running = true at hr'
    rw [hr] at hr'; cases hr'
  idle _ _ := ⟨rfl, hl⟩
  stopping hs := by cases hs
  cleanup := h.cleanup
  finalising := h.finalising

theorem Inv.setStopLogged (h : Inv s) (b : Bool) : Inv { s with stopLogged := b } where
  live_processor := h.live_processor
  live_nodup := h.live_nodup
  live_lt := h.live_lt
  task_lt := h.task_lt
  processor_lt := h.processor_lt
  exec_lt := h.exec_lt
  executor_lt := h.executor_lt
  running := h.running
  idle := h.idle
  stopping := h.stopping
  cleanup := h.cleanup
  finalising := h.finalising

/-! ## The finaliser -/

section Finaliser

variable {c : StopCall}

theorem Inv.dropTask (h : Inv s) (hc : c ∈ s.stops) (hcl : c.taskCleanupComplete = true) :
    Inv (dropTask s c) := by
  unfold Queue.dropTask
  split_ifs with h1
  · simp only [Bool.and_eq_true, beq_iff_eq, Option.isSome_iff_exists] at h1
    obtain ⟨⟨t, ht⟩, hp⟩ := h1
    refine h.clearProcessor (List.eq_nil_iff_forall_not_mem.mpr fun u hu => ?_)
    have hu' := h.live_processor u hu
    rw [hp, ht] at hu'
    rw [← Option.some.inj hu'] at hu
    exact h.cleanup c hc hcl t ht hu
  · exact h

theorem dropTask_fields (s : State) (c : StopCall) :
    (dropTask s c).running = s.running ∧ (dropTask s c).stopping = s.stopping ∧
    (dropTask s c).stopFailed = s.stopFailed ∧ (dropTask s c).executor = s.executor ∧
    (dropTask s c).live = s.live ∧ (dropTask s c).stops = s.stops ∧
    (dropTask s c).threads = s.threads := by
  unfold dropTask
  split_ifs <;> exact ⟨rfl, rfl, rfl, rfl, rfl, rfl, rfl⟩

theorem finalizeLocked_threads (s : State) (c : StopCall) :
    (finalizeLocked s c).threads = s.threads := by
  unfold finalizeLocked Queue.finishStop dropExecutor Queue.dropTask clearFailedStopStateIfRecovered
  simp only
  split_ifs <;> rfl

theorem Inv.finishStop (h : Inv s) (hx : s.stopping = true → s.stopFailed = true) :
    Inv (finishStop s) := by
  unfold Queue.finishStop
  split_ifs with h1
  · simp only
    split_ifs
    · exact h.clearFailed.setStopLogged true
    · exact h
  · have hs : s.stopping = false := by
      by_contra hst
      exact h1 (hx (by simpa using hst))
    have hl := h.setStopLogged true
    simp only [hs] at hl
    exact hl

theorem Inv.finishStop_last (h : Inv s) (hr : s.running = false) (hl : s.live = []) :
    Inv (Queue.finishStop { s with executor := none }) := by
  have hend := h.endStop hr hl
  have ha : taskActive { s with executor := none } = false := by
    simp only [taskActive, hl]
    cases s.processorTask <;> rfl
  by_cases hf : s.stopFailed = true
  · have hcl := clearFailed_recovered (s := { s with executor := none }) hf hr ha rfl
    rw [Queue.finishStop, if_pos hf, hcl]
    exact ((hend.clearProcessor hl).setStopFailed false).setStopLogged true
  · rw [Queue.finishStop, if_neg hf]
    exact hend.setStopLogged true

theorem Inv.finalizeLocked (h : Inv s) {g : ℕ} (hg : s.stops[g]? = some c)
    (hcl : c.taskCleanupComplete = true)
    (ho : s.stopping = true → s.stopFailed = false → g + 1 = s.stops.length) :
    Inv (finalizeLocked s c) := by
  have hmem := List.mem_of_getElem? hg
  have hd := h.dropTask hmem hcl
  obtain ⟨fr, fs, ff, fe, fl, fst, -⟩ := dropTask_fields s c
  unfold Queue.finalizeLocked
  by_cases he : c.execRef.isSome = true ∧ s.executor = c.execRef
  · -- the executor is still that of `c`: the queue is in the middle of this very call
    obtain ⟨e, hce⟩ := Option.isSome_iff_exists.mp he.1
    have hex : s.executor = some e := he.2.trans hce
    have hr : s.running = false := by
      by_contra hr
      obtain ⟨-, e', he', hfresh⟩ := h.running (by simpa using hr)
      rw [hex] at he'
      exact hfresh c hmem (hce.trans he')
    have hs : s.stopping = true := by
      by_contra hs
      rw [(h.idle hr (by simpa using hs)).1] at hex
      cases hex
    obtain ⟨-, n, c', e', hn, hc', he', hce', hlast, huniq⟩ := h.stopping hs
    rw [hex] at he'
    cases he'
    have hgn : g = n := huniq g c hg hce
    subst hgn
    rw [hg] at hc'
    cases hc'
    have hl : s.live = [] := List.eq_nil_iff_forall_not_mem.mpr fun t ht =>
      h.cleanup c hmem hcl t (hlast t ht) ht
    have hdrop : dropExecutor (Queue.dropTask s c) c =
        { Queue.dropTask s c with executor := none } := by
      rw [dropExecutor, if_pos]
      rw [fe, he.2]
      simp [he.1]
    rw [hdrop]
    exact hd.finishStop_last (fr.trans hr) (fl.trans hl)
  · have hdrop : dropExecutor (Queue.dropTask s c) c = Queue.dropTask s c := by
      rw [dropExecutor, if_neg]
      rw [fe]
      simpa using he
    rw [hdrop]
    refine hd.finishStop fun hs => ?_
    rw [fs] at hs
    rw [ff]
    by_contra hf
    obtain ⟨-, n, c', e', hn, hc', he', hce', -, -⟩ := h.stopping hs
    have hgn : g = n := by
      have := ho hs (by simpa using hf)
      omega
    subst hgn
    rw [hg] at hc'
    cases hc'
    exact he ⟨by rw [hce']; rfl, he'.trans hce'.symm⟩

end Finaliser

/-! ## Threads -/

theorem Inv.setCall (h : Inv s) {g : ℕ} {c c' : StopCall} (hg : s.stops[g]? = some c)
    (ht : c'.task = c.task) (he : c'.execRef = c.execRef)
    (hcl : c'.taskCleanupComplete = true → ∀ t, c.task = some t → t ∉ s.live)
    (hm : c.taskCleanupComplete = true → c'.taskCleanupComplete = true)
    (hm' : c.executorCleanupComplete = true → c'.executorCleanupComplete = true) :
    Inv (setCall s g c') := by
  have hlt := (List.getElem?_eq_some_iff.mp hg).1
  have hmem := List.mem_of_getElem? hg
  have hset : ∀ {g' : ℕ} {d : StopCall}, (s.stops.set g c')[g']? = some d →
      (g' = g ∧ d = c') ∨ s.stops[g']? = some d := by
    intro g' d hd
    rw [List.getElem?_set] at hd
    split_ifs at hd with h1
    · exact Or.inl ⟨h1.symm, (Option.some.inj hd).symm⟩
    · exact Or.inr hd
  exact
    { live_processor := h.live_processor
      live_nodup := h.live_nodup
      live_lt := h.live_lt
      task_lt := fun d hd t hdt => by
        rcases List.mem_or_eq_of_mem_set hd with hd | rfl
        · exact h.task_lt d hd t hdt
        · exact h.task_lt c hmem t (ht ▸ hdt)
      processor_lt := h.processor_lt
      exec_lt := fun d hd e hde => by
        rcases List.mem_or_eq_of_mem_set hd with hd | rfl
        · exact h.exec_lt d hd e hde
        · exact h.exec_lt c hmem e (he ▸ hde)
      executor_lt := h.executor_lt
      running := fun hr => by
        obtain ⟨hs, e, hex, hfresh⟩ := h.running hr
        refine ⟨hs, e, hex, fun d hd => ?_⟩
        rcases List.mem_or_eq_of_mem_set hd with hd | rfl
        · exact hfresh d hd
        · exact he ▸ hfresh c hmem
      idle := h.idle
      stopping := fun hs => by
        obtain ⟨hr, n, d, e, hn, hd, hex, hde, hl, hu⟩ := h.stopping hs
        have hu' : ∀ g' d', (s.stops.set g c')[g']? = some d' → d'.execRef = some e → g' = n := by
          intro g' d' hd' hde'
          rcases hset hd' with ⟨rfl, rfl⟩ | hd'
          · exact hu _ c hg (he ▸ hde')
          · exact hu g' d' hd' hde'
        by_cases hgn : g = n
        · subst hgn
          rw [hg] at hd
          cases hd
          exact ⟨hr, g, c', e, (List.length_set ..).trans hn, List.getElem?_set_self hlt, hex,
            he.trans hde, fun t htl => ht.trans (hl t htl), hu'⟩
        · exact ⟨hr, n, d, e, (List.length_set ..).trans hn,
            (List.getElem?_set_ne hgn).trans hd, hex, hde, hl, hu'⟩
      cleanup := fun d hd hdcl t hdt => by
        rcases List.mem_or_eq_of_mem_set hd with hd | rfl
        · exact h.cleanup d hd hdcl t hdt
        · exact hcl hdcl t (ht ▸ hdt)
      finalising := fun th hth hop => by
        obtain ⟨d, hd, h1, h2⟩ := h.finalising th hth hop
        by_cases hgn : g = th.gen
        · subst hgn
          rw [hg] at hd
          cases hd
          exact ⟨c', List.getElem?_set_self hlt, hm h1, hm' h2⟩
        · exact ⟨d, (List.getElem?_set_ne hgn).trans hd, h1, h2⟩ }

/-- What an operation of a thread of call `g` leaves behind. -/
structure OpSound (s : State) (g : ℕ) (r : Effect) : Prop where
  inv : Inv r.state
  threads : r.state.threads = s.threads
  next : Op.finalizeLocked ∈ r.next → ∃ c, r.state.stops[g]? = some c ∧
    c.taskCleanupComplete = true ∧ c.executorCleanupComplete = true
  spawned : ∀ th ∈ r.spawned, Op.finalizeLocked ∉ th.code

theorem Inv.opSound (h : Inv s) (g : ℕ) {next : List Op} {spawned : List Thread}
    (hn : Op.finalizeLocked ∉ next) (hs : ∀ th ∈ spawned, Op.finalizeLocked ∉ th.code) :
    OpSound s g ⟨s, next, spawned⟩ :=
  ⟨h, rfl, fun hmem => absurd hmem hn, hs⟩

theorem stopTask_sound (h : Inv s) {g : ℕ} {c : StopCall} {e : Env} {r : Effect}
    (hr : execOp s g c .stopTask e = some r) : OpSound s g r := by
  simp only [execOp] at hr
  split at hr
  · cases hr; exact h.opSound g (by simp) (by simp)
  · cases hr; exact h.opSound g (by simp) (by simp)
  · split_ifs at hr <;> cases hr <;> exact h.opSound g (by simp [taskGone]) (by simp)
  · split_ifs at hr <;> cases hr <;> exact h.opSound g (by simp [taskGone]) (by simp)
  · cases hr; exact h.opSound g (by simp) (by simp)
  · cases hr

/-- **One operation of a thread keeps the invariant**, given what `Orderly` asks of two of them. -/
theorem execOp_sound (h : Inv s) {g : ℕ} {c : StopCall} {op : Op} {e : Env} {r : Effect}
    (hg : s.stops[g]? = some c)
    (hfin : op = .finalizeLocked → c.taskCleanupComplete = true ∧
      (s.stopping = true → s.stopFailed = false → g + 1 = s.stops.length))
    (hset : op = .setTaskCleanupComplete → ∀ t, c.task = some t → t ∉ s.live)
    (hr : execOp s g c op e = some r) : OpSound s g r := by
  have hmem := List.mem_of_getElem? hg
  cases op with
  | stopTask => exact stopTask_sound h hr
  | stopExecutor =>
    cases e <;> simp only [execOp, reduceCtorEq] at hr
    split at hr
    · cases hr; exact h.opSound g (by simp) (by simp)
    · split_ifs at hr <;> cases hr <;> exact h.opSound g (by simp) (by simp)
  | cancelAndCleanup =>
    cases e <;> simp only [execOp, reduceCtorEq] at hr
    split at hr
    · cases hr
    · cases hr
      refine h.opSound g ?_ (by simp)
      split_ifs <;> simp [taskGone]
  | onTaskDone =>
    cases e <;> simp only [execOp, reduceCtorEq] at hr
    split at hr
    · cases hr
    · split_ifs at hr
      cases hr
      exact h.opSound g (by simp [taskGone]) (by simp)
  | waitTask =>
    cases e <;> simp only [execOp, reduceCtorEq] at hr
    all_goals split_ifs at hr; cases hr; exact h.opSound g (by simp) (by simp)
  | waitExecutor =>
    cases e <;> simp only [execOp, reduceCtorEq] at hr
    all_goals split_ifs at hr; cases hr; exact h.opSound g (by simp) (by simp)
  | runUntilComplete =>
    cases e <;> simp only [execOp, reduceCtorEq] at hr
    · split at hr
      · cases hr
      · cases hr
        exact ⟨h.eraseLive _, rfl, fun hn => absurd hn (by simp), by simp⟩
    · cases hr; exact h.opSound g (by simp) (by simp)
  | shutdownExecutor =>
    cases e <;> simp only [execOp, reduceCtorEq] at hr
    split at hr
    · cases hr
    · cases hr
      exact ⟨⟨h.live_processor, h.live_nodup, h.live_lt, h.task_lt, h.processor_lt, h.exec_lt,
        h.executor_lt, h.running, h.idle, h.stopping, h.cleanup, h.finalising⟩, rfl,
        fun hn => absurd hn (by simp), by simp⟩
  | setTaskDone =>
    cases e <;> simp only [execOp, reduceCtorEq] at hr
    cases hr
    exact ⟨h.setCall hg rfl rfl (h.cleanup c hmem) id id, rfl, fun hn => absurd hn (by simp),
      by simp⟩
  | setTaskCleanupComplete =>
    cases e <;> simp only [execOp, reduceCtorEq] at hr
    cases hr
    exact ⟨h.setCall hg rfl rfl (fun _ => hset rfl) (fun _ => rfl) id, rfl,
      fun hn => absurd hn (by simp), by simp⟩
  | setExecutorDone =>
    cases e <;> simp only [execOp, reduceCtorEq] at hr
    cases hr
    exact ⟨h.setCall hg rfl rfl (h.cleanup c hmem) id id, rfl, fun hn => absurd hn (by simp),
      by simp⟩
  | setExecutorCleanupComplete =>
    cases e <;> simp only [execOp, reduceCtorEq] at hr
    cases hr
    exact ⟨h.setCall hg rfl rfl (h.cleanup c hmem) id (fun _ => rfl), rfl,
      fun hn => absurd hn (by simp), by simp⟩
  | finalizeStopState =>
    cases e <;> simp only [execOp, reduceCtorEq] at hr
    cases hr
    refine ⟨h, rfl, fun hn => ?_, by simp⟩
    by_cases hcl : (c.taskCleanupComplete && c.executorCleanupComplete) = true
    · rw [Bool.and_eq_true] at hcl
      exact ⟨c, hg, hcl⟩
    · simp [hcl] at hn
  | finalizeLocked =>
    cases e <;> simp only [execOp, reduceCtorEq] at hr
    cases hr
    obtain ⟨hcl, ho⟩ := hfin rfl
    exact ⟨h.finalizeLocked hg hcl ho, finalizeLocked_threads s c, fun hn => absurd hn (by simp),
      by simp⟩
  | markStopFailed =>
    cases e <;> simp only [execOp, reduceCtorEq] at hr
    cases hr
    exact ⟨h.setStopFailed true, rfl, fun hn => absurd hn (by simp), by simp⟩

theorem OpSound.apply {g i : ℕ} {r : Effect} {th : Thread} {op : Op} {rest : List Op}
    (h : OpSound s g r) (hth : s.threads[i]? = some th) (hgen : th.gen = g)
    (hcode : th.code = op :: rest) : Inv (r.apply i th rest) := by
  have hi := h.inv
  refine ⟨hi.live_processor, hi.live_nodup, hi.live_lt, hi.task_lt, hi.processor_lt, hi.exec_lt,
    hi.executor_lt, hi.running, hi.idle, hi.stopping, hi.cleanup, fun u hu hop => ?_⟩
  simp only [Effect.apply, List.mem_append] at hu
  rcases hu with hu | hu
  · rcases List.mem_or_eq_of_mem_set hu with hu | rfl
    · exact hi.finalising u hu hop
    · rcases List.mem_append.mp hop with hop | hop
      · obtain ⟨c, hc⟩ := h.next hop
        exact ⟨c, hgen ▸ hc⟩
      · refine hi.finalising th ?_ (by rw [hcode]; exact List.mem_cons_of_mem _ hop)
        rw [h.threads]
        exact List.mem_of_getElem? hth
  · exact absurd hop (h.spawned u hu)

/-- **One orderly step keeps the invariant.** -/
theorem step_inv {s s' : State} {a : Act} (h : Inv s) (ho : Orderly s a)
    (hstep : step s a = some s') : Inv s' := by
  cases a with
  | start lr => cases hstep; exact h.start lr
  | stop ol => cases hstep; exact h.stop ol
  | ensureProcessorStarted lr => cases hstep; exact h.ensureProcessorStarted lr
  | enqueue => cases hstep; exact h.enqueueAdmission
  | resetFailedStopState => cases hstep; exact h.resetFailedStopState
  | taskFinish t =>
    simp only [step] at hstep
    split_ifs at hstep
    cases hstep
    exact h.eraseLive t
  | thread i e =>
    obtain ⟨th, c, op, rest, r, hn, hr, rfl⟩ := step_thread hstep
    obtain ⟨hth, hc, hcode⟩ := nextOp_eq_some hn
    simp only [Orderly, orderlyAct, hn] at ho
    refine (execOp_sound h hc ?_ ?_ hr).apply hth rfl hcode
    · rintro rfl
      obtain ⟨d, hd, hcl, -⟩ := h.finalising th (List.mem_of_getElem? hth) (by simp [hcode])
      rw [hc] at hd
      cases hd
      exact ⟨hcl, orderlyOp_finalize ho⟩
    · rintro rfl
      exact fun t => orderlyOp_setTaskCleanupComplete ho

theorem run_inv {acts : List Act} {s : State} (hrun : runActs step init acts = some s)
    (ho : AllSteps step Orderly init acts) : Inv s :=
  runActs_induct (fun _ _ _ => step_inv) inv_init ho hrun

/-! ## The lifecycle law -/

/-- At most one unfinished processor task, and `start()` answers `True` only with an executor that
no `stop()` has taken to shut it down. -/
def Lawful (s : State) : Prop :=
  s.live.length ≤ 1 ∧ ∀ loopRunning, (start s loopRunning).1 = true →
    ∃ e, (start s loopRunning).2.executor = some e ∧
      ∀ c ∈ (start s loopRunning).2.stops, c.execRef ≠ some e

theorem start_running {loopRunning : Bool} (h : (start s loopRunning).1 = true) :
    (start s loopRunning).2.running = true := by
  unfold start at h ⊢
  simp only at h ⊢
  split_ifs at h ⊢ with h1 h2 h3 h4
  · exact h2
  · unfold ensureExecutor createTask
    simp only
    split <;> rfl
  · unfold ensureExecutor
    simp only
    split <;> rfl

/-- **Orderly runs.** In every run all of whose steps are orderly, every state reached is lawful. -/
theorem orderly_run (acts : List Act) (s : State) (hrun : runActs step init acts = some s)
    (ho : AllSteps step Orderly init acts) : Lawful s := by
  have h := run_inv hrun ho
  refine ⟨h.live_le_one, fun lr hstart => ?_⟩
  exact ((h.start lr).running (start_running hstart)).2

/-- A queue is started, and stopped from outside its event loop; the shutdown thread has passed
the event test and waits for the lock while the caller finalises. -/
def firstStop : List Act :=
  [.start true, .stop false, .thread 0 (.loop (.running true)), .thread 1 .quiet, .taskFinish 0,
    .thread 1 .quiet, .thread 1 .quiet, .thread 1 .quiet, .thread 1 .quiet, .thread 0 .quiet,
    .thread 0 .quiet, .thread 2 .quiet, .thread 2 .quiet, .thread 2 .quiet, .thread 2 .quiet,
    .thread 0 .quiet, .thread 0 .quiet, .thread 0 .quiet]

/-- The run of the first stop is orderly and ends lawfully. -/
theorem orderly_run_firstStop : ∃ s, runActs step init firstStop = some s ∧
    AllSteps step Orderly init firstStop ∧ Lawful s := by
  have ho : AllSteps step Orderly init firstStop := by decide
  obtain ⟨s, hs⟩ : ∃ s, runActs step init firstStop = some s := ⟨_, rfl⟩
  exact ⟨s, hs, ho, orderly_run firstStop s hs ho⟩

/-- After the first stop: a restart, a second stop on the loop thread that has begun to shut its
executor down, and then the late finaliser of the first stop takes the lock. -/
def lateFinaliser : List Act :=
  firstStop ++ [.start true, .stop true, .thread 3 (.loop (.current true)), .thread 3 .quiet,
    .thread 6 .quiet, .thread 2 .quiet]

/-- After the late finaliser, `start()` answers `True`, leaves two unfinished tasks and keeps the
executor that the second stop is shutting down. -/
theorem lateFinaliser_unlawful : ∃ s, runActs step init lateFinaliser = some s ∧
    (start s true).1 = true ∧ (start s true).2.live.length = 2 ∧
    (∃ c ∈ (start s true).2.stops, c.execRef = (start s true).2.executor) ∧
    (∃ e ∈ (start s true).2.shutDown, (start s true).2.executor = some e) ∧
    ¬ Lawful s ∧ ¬ Lawful (start s true).2 := by
  obtain ⟨s, hs⟩ : ∃ s, runActs step init lateFinaliser = some s := ⟨_, rfl⟩
  have hs' := hs
  rw [show runActs step init lateFinaliser = _ from rfl] at hs'
  cases hs'
  refine ⟨_, hs, by decide, by decide, by decide, by decide, fun hl => ?_, fun hl => ?_⟩
  · obtain ⟨e, he, hfresh⟩ := hl.2 true (by decide)
    revert e
    decide
  · exact absurd hl.1 (by decide)

end MMRelay.Queue
