import MMRelay.Lib.Tally
import MMRelay.Database.Manager

/-!
# What holds once `close` has returned

The invariant of the database manager over every interleaving of its operations and closers. The
flag of a thread in the current thread-local store says whether the thread is inside an operation
or a task, the counters are the sums over the threads, and a closer that is past a section finds
what the section left behind for ever.

* `Core`, `core_step`: flags, counters and connections;
* `drained_step`, `swept_step`: nothing gets in again;
* `Inv`, `inv_step`, `inv_run`: the invariant;
* **`closed_after_return`**: no operation, task or connection is left, none is created, and every
  later operation is refused.
-/

namespace MMRelay.Database

variable {s s' : State} {a : Act} {t : ℕ} {th : Thread}

/-! ## The invariant -/

/-- The thread is inside an operation or a task. -/
def Thread.busy (th : Thread) : Bool := th.worker.isSome || !th.frames.isEmpty

/-- Every operation remembers whether the thread was busy before it. -/
def FramesOk (worker : Bool) : List Frame → Prop
  | [] => True
  | f :: rest => f.previouslyAdmitted = (worker || !rest.isEmpty) ∧ FramesOk worker rest

structure Thread.Ok (th : Thread) : Prop where
  frames : FramesOk th.worker.isSome th.frames
  admitting : ∀ write prev, th.pc = .admitting write prev → prev = th.busy
  connecting : th.pc = .connecting → th.frames ≠ []

/-- Flags, counters and connections. -/
structure Core (s : State) : Prop where
  thread : ∀ t, (s.threads t).Ok
  flag : ∀ t, s.allowDuringClose s.threadLocal t = (s.threads t).busy
  fresh : ∀ g t, s.threadLocal < g → s.allowDuringClose g t = false
  operations : Tally s.activeSyncCount fun t => (s.threads t).frames.length
  tasks : Tally s.running fun t => (s.threads t).worker.isSome.toNat
  accepting : s.acceptingSubmissions = !s.closing
  usable : s.usable ⊆ s.connections

/-- The executor is shut down and has no task left. -/
structure State.Drained (s : State) : Prop where
  closing : s.closing = true
  pending : s.pending = []
  running : s.running = 0

/-- Also no operation is active and no connection is tracked. -/
structure State.Swept (s : State) : Prop extends s.Drained where
  count : s.activeSyncCount = 0
  connections : s.connections = ∅

/-- What a closer relies on. -/
def State.Stage (s : State) : Pc → Prop
  | .shutdown => s.closing = true
  | .sweep => s.Drained
  | .swap => s.Swept
  | _ => True

structure Inv (s : State) : Prop extends Core s where
  stage : ∀ t, s.Stage (s.threads t).pc
  closed : 0 < s.returned → s.Swept

/-! ## Threads -/

/-- The next section relies on nothing the thread has read or done. -/
def Pc.plain : Pc → Bool
  | .admitting _ _ | .connecting => false
  | _ => true

theorem Thread.Ok.plain (hf : FramesOk th.worker.isSome th.frames) (hp : th.pc.plain = true) :
    th.Ok where
  frames := hf
  admitting write prev hpc := by
    rw [hpc] at hp
    cases hp
  connecting hpc := by
    rw [hpc] at hp
    cases hp

theorem Core.not_busy (h : Core s) (hcount : s.activeSyncCount = 0) (hrunning : s.running = 0)
    (t : ℕ) : (s.threads t).frames = [] ∧ (s.threads t).worker = none := by
  have hframes := h.operations.le t
  have hworker := h.tasks.le t
  rw [hcount] at hframes
  rw [hrunning] at hworker
  constructor
  · exact List.length_eq_zero_iff.mp (Nat.le_zero.mp hframes)
  · cases hw : (s.threads t).worker with
    | none => rfl
    | some w =>
      rw [hw] at hworker
      simp at hworker

theorem tally_setThread {n : ℕ} {g : Thread → ℕ} (h : Tally n fun u => g (s.threads u)) (t : ℕ)
    (th : Thread) :
    Tally (n - g (s.threads t) + g th) fun u => g ((s.setThread t th).threads u) := by
  have heq : (fun u => g ((s.setThread t th).threads u)) =
      Function.update (fun u => g (s.threads u)) t (g th) := by
    funext u
    exact Function.apply_update (fun _ => g) s.threads t th u
  rw [heq]
  exact h.set t (g th)

theorem forall_setThread {P : ℕ → Thread → Prop} (h : ∀ u, u ≠ t → P u (s.threads u))
    (ht : P t th) (u : ℕ) : P u ((s.setThread t th).threads u) := by
  show P u (Function.update s.threads t th u)
  by_cases hu : u = t
  · subst hu
    rw [Function.update_self]
    exact ht
  · rw [Function.update_of_ne hu]
    exact h u hu

theorem Core.aside (h : Core s) {p : List Bool} {c : ℕ → ℕ → Option ℕ} {n d k r : ℕ}
    {w : Option ℕ} :
    Core { s with pending := p, connection := c, created := n, writeOwner := w, writeDepth := d,
                  returned := k, refused := r } :=
  ⟨h.thread, h.flag, h.fresh, h.operations, h.tasks, h.accepting, h.usable⟩

theorem Core.setThread (h : Core s) (hok : th.Ok) (hframes : th.frames = (s.threads t).frames)
    (hworker : th.worker.isSome = (s.threads t).worker.isSome) : Core (s.setThread t th) where
  thread := forall_setThread (fun u _ => h.thread u) hok
  flag := by
    refine forall_setThread (P := fun u th => s.allowDuringClose s.threadLocal u = th.busy)
      (fun u _ => h.flag u) ?_
    rw [h.flag t, Thread.busy, Thread.busy, hframes, hworker]
  fresh := h.fresh
  operations := by
    have hle := h.operations.le t
    have htally := tally_setThread (g := fun th => th.frames.length) h.operations t th
    simp only [hframes] at htally
    rwa [Nat.sub_add_cancel hle] at htally
  tasks := by
    have hle := h.tasks.le t
    have htally := tally_setThread (g := fun th => th.worker.isSome.toNat) h.tasks t th
    simp only [hworker] at htally
    rwa [Nat.sub_add_cancel hle] at htally
  accepting := h.accepting
  usable := h.usable

theorem Core.setPc (h : Core s) (t : ℕ) {pc : Pc} (hp : pc.plain = true) : Core (s.setPc t pc) :=
  h.setThread (.plain (h.thread t).frames hp) rfl rfl

theorem Core.move (h : Core s) (hok : th.Ok) {n r : ℕ} {p : List Bool} {b : Bool}
    (hb : b = th.busy)
    (hn : n = s.activeSyncCount - (s.threads t).frames.length + th.frames.length)
    (hr : r = s.running - (s.threads t).worker.isSome.toNat + th.worker.isSome.toNat) :
    Core ((State.setFlag { s with activeSyncCount := n, running := r, pending := p } t b).setThread
      t th) where
  thread := forall_setThread (fun u _ => h.thread u) hok
  flag := by
    refine forall_setThread (P := fun u th =>
      (if s.threadLocal = s.threadLocal ∧ u = t then b
        else s.allowDuringClose s.threadLocal u) = th.busy) (fun u hu => ?_) ?_
    · rw [if_neg fun hand => hu hand.2]
      exact h.flag u
    · rw [if_pos ⟨rfl, rfl⟩]
      exact hb
  fresh g u hg := by
    have hne : ¬ (g = s.threadLocal ∧ u = t) := fun hand => absurd hand.1 (Nat.ne_of_gt hg)
    show (if g = s.threadLocal ∧ u = t then b else s.allowDuringClose g u) = false
    rw [if_neg hne]
    exact h.fresh g u hg
  operations := by
    subst hn
    exact tally_setThread (g := fun th => th.frames.length) h.operations t th
  tasks := by
    subst hr
    exact tally_setThread (g := fun th => th.worker.isSome.toNat) h.tasks t th
  accepting := h.accepting
  usable := h.usable

/-! ## Connections -/

/-- The stale connection of a thread is not among the usable ones. -/
theorem Core.usable_stale (h : Core s) (hcur : s.currentConnection t = none) :
    s.usable ⊆ s.connections \ (s.connection s.threadLocal t).toFinset := by
  intro c hc
  rw [Finset.mem_sdiff]
  refine ⟨h.usable hc, fun hmem => ?_⟩
  rw [Option.mem_toFinset, Option.mem_def] at hmem
  rw [State.currentConnection, hmem, Option.filter_some, if_pos (by simpa using hc)] at hcur
  cases hcur

theorem Core.createConnection (h : Core s) (hcur : s.currentConnection t = none) :
    Core (s.createConnection t) where
  thread := h.thread
  flag := h.flag
  fresh := h.fresh
  operations := h.operations
  tasks := h.tasks
  accepting := h.accepting
  usable := Finset.insert_subset_insert _ (h.usable_stale hcur)

theorem Core.discardConnection (h : Core s) (hcur : s.currentConnection t = none) :
    Core (s.discardConnection t) where
  thread := h.thread
  flag := h.flag
  fresh := h.fresh
  operations := h.operations
  tasks := h.tasks
  accepting := h.accepting
  usable := h.usable_stale hcur

theorem afterConnect_cases (th : Thread) : afterConnect th = .locking ∨ afterConnect th = .idle := by
  unfold afterConnect
  split
  · exact .inl rfl
  · exact .inr rfl

theorem getConnection_cases {ok : Bool} (h : getConnection s t ok = some s') :
    ∃ pc, (pc = .leaving ∨ pc = .locking ∨ pc = .idle) ∧
      (s' = s.setPc t pc ∨
        s.currentConnection t = none ∧
          (s' = (s.createConnection t).setPc t pc ∨ s' = (s.discardConnection t).setPc t pc)) := by
  unfold getConnection at h
  split at h
  · cases h
    exact ⟨.leaving, .inl rfl, .inl rfl⟩
  split at h
  · cases h
    exact ⟨_, .inr (afterConnect_cases _), .inl rfl⟩
  rename_i hsome
  have hcur : s.currentConnection t = none := by simpa using hsome
  split at h
  · cases h
  split at h
  · cases h
    exact ⟨_, .inr (afterConnect_cases _), .inr ⟨hcur, .inl rfl⟩⟩
  · cases h
    exact ⟨.leaving, .inl rfl, .inr ⟨hcur, .inr rfl⟩⟩

theorem core_connect {ok : Bool} (h : Core s) (hs : getConnection s t ok = some s') : Core s' := by
  obtain ⟨pc, hpc, hcases⟩ := getConnection_cases hs
  have hp : pc.plain = true := by rcases hpc with rfl | rfl | rfl <;> rfl
  rcases hcases with rfl | ⟨hcur, rfl | rfl⟩
  · exact h.setPc t hp
  · exact (h.createConnection hcur).setPc t hp
  · exact (h.discardConnection hcur).setPc t hp

/-! ## One step -/

theorem core_begin {write : Bool} (h : Core s) (hs : step s (.begin t write) = some s') :
    Core s' := by
  simp only [step] at hs
  split at hs
  · cases hs
    have hsome : ((s.threads t).worker.map fun _ => Worker.running).isSome =
        (s.threads t).worker.isSome := Option.isSome_map
    refine h.setThread ⟨?_, ?_, nofun⟩ rfl hsome
    · rw [hsome]
      exact (h.thread t).frames
    · intro w prev hpc
      injection hpc with _ hprev
      rw [← hprev, State.isAdmittedDuringClose, h.flag t, Thread.busy, Thread.busy, hsome]
  · cases hs

theorem core_enter (h : Core s) (hs : step s (.enter t) = some s') : Core s' := by
  simp only [step] at hs
  split at hs
  · rename_i write prev hpc
    have hprev : prev = (s.threads t).busy := (h.thread t).admitting write prev hpc
    split at hs
    · cases hs
      have hcore : Core (s.setPc t .idle) := h.setPc t rfl
      exact hcore.aside
    · cases hs
      refine h.move (n := s.activeSyncCount + 1) (r := s.running) (p := s.pending) (b := true)
        ?_ ?_ ?_ ?_
      · exact ⟨⟨hprev, (h.thread t).frames⟩, nofun, fun _ => List.cons_ne_nil _ _⟩
      · simp [Thread.busy]
      · have hle := h.operations.le t
        simp only [List.length_cons]
        omega
      · exact (Nat.sub_add_cancel (h.tasks.le t)).symm
  · cases hs

theorem core_leave (h : Core s) (hs : step s (.leave t) = some s') : Core s' := by
  simp only [step] at hs
  split at hs
  · rename_i f rest hpc hframes
    cases hs
    have hok := (h.thread t).frames
    rw [hframes] at hok
    refine h.move (n := s.activeSyncCount - 1) (r := s.running) (p := s.pending)
      (b := f.previouslyAdmitted)
      (.plain hok.2 rfl) hok.1 ?_ ?_
    · have hle := h.operations.le t
      rw [hframes, List.length_cons] at hle ⊢
      show s.activeSyncCount - 1 = s.activeSyncCount - (rest.length + 1) + rest.length
      omega
    · exact (Nat.sub_add_cancel (h.tasks.le t)).symm
  · cases hs

theorem core_startTask (h : Core s) (hs : step s (.startTask t) = some s') : Core s' := by
  simp only [step] at hs
  split at hs
  · rename_i write rest hpending
    split at hs
    · rename_i hempty
      cases hs
      refine h.move (n := s.activeSyncCount) (r := s.running + 1) (p := rest) (b := true)
        ?_ rfl ?_ ?_
      · exact .plain trivial rfl
      · rw [hempty]
        rfl
      · rw [hempty]
        rfl
    · cases hs
  · cases hs

theorem core_endTask (h : Core s) (hs : step s (.endTask t) = some s') : Core s' := by
  simp only [step] at hs
  split at hs
  · rename_i hlast
    cases hs
    refine h.move (n := s.activeSyncCount) (r := s.running - 1) (p := s.pending) (b := false)
      ?_ rfl ?_ ?_
    · exact .plain trivial rfl
    · rw [hlast]
      rfl
    · rw [hlast]
      rfl
  · cases hs

/-- Every step but a swap keeps flags, counters and connections. -/
theorem core_step (h : Core s) (hswap : ∀ t, a = .swap t → s.Swept)
    (hs : step s a = some s') : Core s' := by
  cases a with
  | begin t write => exact core_begin h hs
  | enter t => exact core_enter h hs
  | connect t ok =>
    simp only [step] at hs
    split at hs
    · exact core_connect h hs
    · cases hs
  | lockWrite t =>
    simp only [step] at hs
    split at hs
    · cases hs
      have hcore : Core (s.setPc t .idle) := h.setPc t rfl
      exact hcore.aside
    · cases hs
  | breakConnection t =>
    simp only [step] at hs
    split at hs
    · cases hs
      exact ⟨h.thread, h.flag, h.fresh, h.operations, h.tasks, h.accepting,
        Finset.sdiff_subset.trans h.usable⟩
    · cases hs
  | endCallback t =>
    simp only [step] at hs
    split at hs
    · rename_i f rest hpc hframes
      cases hs
      have hcore : Core (if f.write then releaseWrite s else s) := by
        split
        · exact h.aside
        · exact h
      exact hcore.setPc t rfl
    · cases hs
  | leave t => exact core_leave h hs
  | submit t write =>
    simp only [step] at hs
    split at hs
    · split at hs
      · cases hs
        exact h.aside
      · cases hs
        exact h.aside
    · cases hs
  | cancel i =>
    simp only [step] at hs
    split at hs
    · cases hs
      exact h.aside
    · cases hs
  | startTask t => exact core_startTask h hs
  | endTask t => exact core_endTask h hs
  | close t =>
    simp only [step] at hs
    split at hs
    · split at hs
      · cases hs
        exact h
      · cases hs
        have hcore : Core { s with acceptingSubmissions := false, closing := true } :=
          ⟨h.thread, h.flag, h.fresh, h.operations, h.tasks, rfl, h.usable⟩
        exact hcore.setPc t rfl
    · cases hs
  | shutdown t =>
    simp only [step] at hs
    split at hs
    · cases hs
      exact h.setPc t rfl
    · cases hs
  | sweep t =>
    simp only [step] at hs
    split at hs
    · cases hs
      have hempty : s.usable \ s.connections ⊆ ∅ := by
        rw [Finset.sdiff_eq_empty_iff_subset.mpr h.usable]
      have hcore : Core { s with connections := ∅, usable := s.usable \ s.connections } :=
        ⟨h.thread, h.flag, h.fresh, h.operations, h.tasks, h.accepting, hempty⟩
      exact hcore.setPc t rfl
    · cases hs
  | swap t =>
    simp only [step] at hs
    split at hs
    · cases hs
      have hsw := hswap t rfl
      -- In the new store every flag is unset, and no thread is busy.
      have hcore : Core { s with threadLocal := s.threadLocal + 1 } := by
        refine ⟨h.thread, fun u => ?_, fun g u hg => ?_, h.operations, h.tasks, h.accepting,
          h.usable⟩
        · obtain ⟨hframes, hworker⟩ := h.not_busy hsw.count hsw.running u
          show s.allowDuringClose (s.threadLocal + 1) u = (s.threads u).busy
          rw [h.fresh _ u (Nat.lt_succ_self _), Thread.busy, hframes, hworker]
          rfl
        · exact h.fresh g u (Nat.lt_of_succ_lt hg)
      have hcore' : Core (State.setPc { s with threadLocal := s.threadLocal + 1 } t .idle) :=
        hcore.setPc t rfl
      exact hcore'.aside
    · cases hs

/-! ## Nothing gets in again -/

/-- The steps that change the executor or start to close. -/
def Act.onExecutor : Act → Bool
  | .submit _ _ | .cancel _ | .startTask _ | .endTask _ | .close _ => true
  | _ => false

/-- The steps that change the count of operations or the connections. -/
def Act.onOperations : Act → Bool
  | .enter _ | .leave _ | .connect _ _ | .sweep _ => true
  | _ => false

/-- `run_sync` and `run_async` ask to be admitted. -/
def Act.isRequest : Act → Bool
  | .enter _ | .submit _ _ => true
  | _ => false

theorem step_executor (ha : a.onExecutor = false) (hs : step s a = some s') :
    s'.closing = s.closing ∧ s'.pending = s.pending ∧ s'.running = s.running := by
  cases a with
  | submit | cancel | startTask | endTask | close => cases ha
  | connect t ok =>
    simp only [step] at hs
    split at hs
    · obtain ⟨pc, -, rfl | ⟨-, rfl | rfl⟩⟩ := getConnection_cases hs <;> exact ⟨rfl, rfl, rfl⟩
    · cases hs
  | endCallback t =>
    simp only [step] at hs
    split at hs
    · cases hs
      split <;> exact ⟨rfl, rfl, rfl⟩
    · cases hs
  | _ =>
    simp only [step] at hs
    repeat' split at hs
    all_goals
      cases hs <;> exact ⟨rfl, rfl, rfl⟩

theorem step_operations (ha : a.onOperations = false) (hs : step s a = some s') :
    s'.activeSyncCount = s.activeSyncCount ∧ s'.connections = s.connections ∧
      s'.created = s.created := by
  cases a with
  | enter | leave | connect | sweep => cases ha
  | endCallback t =>
    simp only [step] at hs
    split at hs
    · cases hs
      split <;> exact ⟨rfl, rfl, rfl⟩
    · cases hs
  | _ =>
    simp only [step] at hs
    repeat' split at hs
    all_goals
      cases hs <;> exact ⟨rfl, rfl, rfl⟩

/-- Only a request can be refused. -/
theorem step_refused (ha : a.isRequest = false) (hs : step s a = some s') :
    s'.refused = s.refused := by
  cases a with
  | enter | submit => cases ha
  | connect t ok =>
    simp only [step] at hs
    split at hs
    · obtain ⟨pc, -, rfl | ⟨-, rfl | rfl⟩⟩ := getConnection_cases hs <;> rfl
    · cases hs
  | endCallback t =>
    simp only [step] at hs
    split at hs
    · cases hs
      split <;> rfl
    · cases hs
  | _ =>
    simp only [step] at hs
    repeat' split at hs
    all_goals
      cases hs <;> rfl

theorem closing_step (h : s.closing = true) (hs : step s a = some s') : s'.closing = true := by
  by_cases ha : a.onExecutor = false
  · exact (step_executor ha hs).1.trans h
  cases a with
  | submit | cancel | startTask | endTask =>
    simp only [step] at hs
    repeat' split at hs
    all_goals
      cases hs <;> exact h
  | close t =>
    simp only [step] at hs
    repeat' split at hs
    · cases hs
      exact h
    · cases hs
      rfl
    · cases hs
  | _ => exact absurd rfl ha

/-- Once the executor has no task left, it never gets one. -/
theorem drained_step (h : Core s) (hd : s.Drained) (hs : step s a = some s') : s'.Drained := by
  have hclosing := closing_step hd.closing hs
  by_cases ha : a.onExecutor = false
  · obtain ⟨-, hpending, hrunning⟩ := step_executor ha hs
    exact ⟨hclosing, hpending.trans hd.pending, hrunning.trans hd.running⟩
  cases a with
  | submit t write =>
    have hrefuse : s.acceptingSubmissions = false := by rw [h.accepting, hd.closing]; rfl
    simp only [step, hrefuse] at hs
    split at hs
    · cases hs
      exact ⟨hd.closing, hd.pending, hd.running⟩
    · cases hs
  | cancel i =>
    simp only [step, hd.pending] at hs
    cases hs
  | startTask t =>
    simp only [step, hd.pending] at hs
    cases hs
  | endTask t =>
    simp only [step] at hs
    split at hs
    · cases hs
      refine ⟨hd.closing, hd.pending, ?_⟩
      show s.running - 1 = 0
      rw [hd.running]
    · cases hs
  | close t =>
    simp only [step] at hs
    repeat' split at hs
    · cases hs
      exact hd
    · cases hs
      exact ⟨rfl, hd.pending, hd.running⟩
    · cases hs
  | _ => exact absurd rfl ha

theorem Core.not_connecting (h : Core s) (hsw : s.Swept) (t : ℕ) :
    (s.threads t).pc ≠ .connecting := fun hpc =>
  (h.thread t).connecting hpc (h.not_busy hsw.count hsw.running t).1

theorem enter_swept (h : Core s) (hsw : s.Swept) (hs : step s (.enter t) = some s') :
    s' = { s.setPc t .idle with refused := s.refused + 1 } := by
  simp only [step] at hs
  split at hs
  · rename_i write prev hpc
    obtain ⟨hframes, hworker⟩ := h.not_busy hsw.count hsw.running t
    have hprev : prev = false := by
      rw [(h.thread t).admitting write prev hpc, Thread.busy, hframes, hworker]
      rfl
    rw [if_pos ⟨hsw.closing, hprev⟩] at hs
    cases hs
    rfl
  · cases hs

theorem submit_swept {write : Bool} (h : Core s) (hsw : s.Swept)
    (hs : step s (.submit t write) = some s') : s' = { s with refused := s.refused + 1 } := by
  have hrefuse : s.acceptingSubmissions = false := by rw [h.accepting, hsw.closing]; rfl
  simp only [step] at hs
  split at hs
  · rw [if_neg (by simp [hrefuse])] at hs
    cases hs
    rfl
  · cases hs

theorem swept_step (h : Core s) (hsw : s.Swept) (hs : step s a = some s') :
    s'.Swept ∧ s'.created = s.created := by
  have hd := drained_step h hsw.toDrained hs
  by_cases ha : a.onOperations = false
  · obtain ⟨hcount, hconn, hcreated⟩ := step_operations ha hs
    exact ⟨⟨hd, hcount.trans hsw.count, hconn.trans hsw.connections⟩, hcreated⟩
  cases a with
  | enter t =>
    have heq := enter_swept h hsw hs
    subst heq
    exact ⟨⟨hd, hsw.count, hsw.connections⟩, rfl⟩
  | leave t =>
    simp only [step] at hs
    split at hs
    · rename_i f rest hpc hframes
      rw [(h.not_busy hsw.count hsw.running t).1] at hframes
      cases hframes
    · cases hs
  | connect t ok =>
    simp only [step, if_neg (h.not_connecting hsw t)] at hs
    cases hs
  | sweep t =>
    simp only [step] at hs
    split at hs
    · cases hs
      exact ⟨⟨hd, hsw.count, rfl⟩, rfl⟩
    · cases hs
  | _ => exact absurd rfl ha

theorem refused_step (h : Core s) (hsw : s.Swept) (hs : step s a = some s') :
    s'.refused = s.refused + if a.isRequest then 1 else 0 := by
  by_cases ha : a.isRequest = false
  · rw [step_refused ha hs, ha]
    rfl
  cases a with
  | enter t =>
    have heq := enter_swept h hsw hs
    subst heq
    rfl
  | submit t write =>
    have heq := submit_swept h hsw hs
    subst heq
    rfl
  | _ => exact absurd rfl ha

/-! ## Runs -/

theorem pc_setThread (s : State) (t : ℕ) {th : Thread} {P : Pc → Prop} (hP : P th.pc) (u : ℕ) :
    ((s.setThread t th).threads u).pc = (s.threads u).pc ∨
      P ((s.setThread t th).threads u).pc := by
  show (Function.update s.threads t th u).pc = _ ∨ P (Function.update s.threads t th u).pc
  by_cases hu : u = t
  · subst hu
    rw [Function.update_self]
    exact .inr hP
  · rw [Function.update_of_ne hu]
    exact .inl rfl

theorem step_pc (h : Inv s) (hs : step s a = some s') (u : ℕ) :
    (s'.threads u).pc = (s.threads u).pc ∨ s'.Stage (s'.threads u).pc := by
  cases a with
  | connect t ok =>
    simp only [step] at hs
    split at hs
    · obtain ⟨pc, hpc, hcases⟩ := getConnection_cases hs
      have hst : ∀ s₀ : State, s₀.Stage pc := fun _ => by
        rcases hpc with rfl | rfl | rfl <;> trivial
      rcases hcases with rfl | ⟨-, rfl | rfl⟩
      · exact pc_setThread s t (hst _) u
      · exact pc_setThread (s.createConnection t) t (hst _) u
      · exact pc_setThread (s.discardConnection t) t (hst _) u
    · cases hs
  | endCallback t =>
    simp only [step] at hs
    split at hs
    · rename_i f rest hpc hframes
      cases hs
      cases f.write with
      | true => exact pc_setThread (releaseWrite s) t trivial u
      | false => exact pc_setThread s t trivial u
    · cases hs
  | close t =>
    simp only [step] at hs
    repeat' split at hs
    · cases hs
      exact .inl rfl
    · cases hs
      have hst : State.Stage { s with acceptingSubmissions := false, closing := true } .shutdown :=
        rfl
      exact pc_setThread { s with acceptingSubmissions := false, closing := true } t hst u
    · cases hs
  | shutdown t =>
    simp only [step] at hs
    split at hs
    · rename_i hguard
      cases hs
      have hclosing := h.stage t
      rw [hguard.1] at hclosing
      exact pc_setThread s t ⟨hclosing, hguard.2.1, hguard.2.2⟩ u
    · cases hs
  | sweep t =>
    simp only [step] at hs
    split at hs
    · rename_i hguard
      cases hs
      have hd := h.stage t
      rw [hguard.1] at hd
      exact pc_setThread _ t ⟨⟨hd.closing, hd.pending, hd.running⟩, hguard.2, rfl⟩ u
    · cases hs
  | _ =>
    simp only [step] at hs
    repeat' split at hs
    all_goals
      cases hs <;> first | exact .inl rfl | exact pc_setThread _ _ trivial u

theorem step_returned (hs : step s a = some s') :
    s'.returned = s.returned ∨ ∃ t, a = .swap t := by
  cases a with
  | swap t => exact .inr ⟨t, rfl⟩
  | connect t ok =>
    simp only [step] at hs
    split at hs
    · obtain ⟨pc, -, rfl | ⟨-, rfl | rfl⟩⟩ := getConnection_cases hs <;> exact .inl rfl
    · cases hs
  | endCallback t =>
    simp only [step] at hs
    split at hs
    · cases hs
      split <;> exact .inl rfl
    · cases hs
  | _ =>
    simp only [step] at hs
    repeat' split at hs
    all_goals
      cases hs <;> exact .inl rfl

theorem stage_step (h : Inv s) (hs : step s a = some s') {pc : Pc} (hst : s.Stage pc) :
    s'.Stage pc := by
  cases pc with
  | shutdown => exact closing_step hst hs
  | sweep => exact drained_step h.toCore hst hs
  | swap => exact (swept_step h.toCore hst hs).1
  | _ => trivial

theorem swap_swept (h : Inv s) (hs : step s (.swap t) = some s') : s.Swept := by
  simp only [step] at hs
  split at hs
  · rename_i hpc
    have hstage := h.stage t
    rw [hpc] at hstage
    exact hstage
  · cases hs

theorem inv_step (h : Inv s) (hs : step s a = some s') : Inv s' where
  toCore := core_step h.toCore (fun t ha => by subst ha; exact swap_swept h hs) hs
  stage u := by
    rcases step_pc h hs u with hpc | hstage
    · rw [hpc]
      exact stage_step h hs (h.stage u)
    · exact hstage
  closed hret := by
    rcases step_returned hs with hsame | ⟨t, rfl⟩
    · rw [hsame] at hret
      exact (swept_step h.toCore (h.closed hret) hs).1
    · exact (swept_step h.toCore (swap_swept h hs) hs).1

theorem inv_init : Inv .init where
  thread _ := .plain trivial rfl
  flag _ := rfl
  fresh _ _ _ := rfl
  operations := .zero
  tasks := .zero
  accepting := rfl
  usable := subset_rfl
  stage _ := trivial
  closed hret := absurd hret (Nat.lt_irrefl 0)

theorem inv_run {as : List Act} (h : Inv s) (hrun : runActs step s as = some s') : Inv s' :=
  runActs_induct (fun _ _ _ h _ hs => inv_step h hs) h
    (allSteps_of_forall (fun _ _ => trivial) s as) hrun

/-- No operation is active, no task is left, and no connection is tracked or usable. -/
structure State.Closed (s : State) : Prop where
  frames : ∀ t, (s.threads t).frames = []
  worker : ∀ t, (s.threads t).worker = none
  count : s.activeSyncCount = 0
  pending : s.pending = []
  connections : s.connections = ∅
  usable : s.usable = ∅

theorem Core.toClosed (h : Core s) (hsw : s.Swept) : s.Closed where
  frames t := (h.not_busy hsw.count hsw.running t).1
  worker t := (h.not_busy hsw.count hsw.running t).2
  count := hsw.count
  pending := hsw.pending
  connections := hsw.connections
  usable := by
    have hsub := h.usable
    rw [hsw.connections] at hsub
    exact Finset.subset_empty.mp hsub

theorem swept_run {as : List Act} (h : Inv s) (hsw : s.Swept) (hrun : runActs step s as = some s') :
    s'.Swept ∧ s'.created = s.created ∧ s'.refused = s.refused + as.countP Act.isRequest := by
  induction as generalizing s with
  | nil =>
    cases hrun
    exact ⟨hsw, rfl, rfl⟩
  | cons a as ih =>
    rw [runActs_cons, Option.bind_eq_some_iff] at hrun
    obtain ⟨s₁, hs, hrun⟩ := hrun
    obtain ⟨hsw₁, hcreated₁⟩ := swept_step h.toCore hsw hs
    have hrefused₁ := refused_step h.toCore hsw hs
    obtain ⟨hsw', hcreated, hrefused⟩ := ih (inv_step h hs) hsw₁ hrun
    refine ⟨hsw', hcreated.trans hcreated₁, ?_⟩
    rw [hrefused, hrefused₁, List.countP_cons]
    omega

/-- **Close is final.** In every interleaving, once a `close` has returned nothing of the manager is
left: no operation is active, no connection is tracked or usable, none is created later, and every
later request is refused. -/
theorem closed_after_return {as bs : List Act} (has : runActs step .init as = some s)
    (hret : 0 < s.returned) (hbs : runActs step s bs = some s') :
    s.Closed ∧ s'.Closed ∧ s'.created = s.created ∧
      s'.refused = s.refused + bs.countP Act.isRequest := by
  have hinv := inv_run inv_init has
  have hsw := hinv.closed hret
  obtain ⟨hsw', hcreated, hrefused⟩ := swept_run hinv hsw hbs
  exact ⟨hinv.toClosed hsw, (inv_run hinv hbs).toClosed hsw', hcreated, hrefused⟩

/-- A task and a write with a read inside it are let through while another thread closes. -/
def closingRun : List Act :=
  [.submit 0 false, .startTask 3, .begin 1 true, .enter 1, .connect 1 true, .lockWrite 1, .close 2,
    .begin 3 false, .enter 3, .begin 1 false, .enter 1, .connect 1 true, .endCallback 1, .leave 1,
    .endCallback 1, .connect 3 true, .endCallback 3, .leave 1, .leave 3, .endTask 3, .shutdown 2,
    .begin 4 true, .sweep 2, .swap 2]

/-- Requests that come too late. -/
def lateRun : List Act := [.enter 4, .submit 0 true, .begin 1 false, .enter 1]

theorem closed_after_return_late :
    ∃ s s', runActs step .init closingRun = some s ∧ 0 < s.returned ∧
      runActs step s lateRun = some s' ∧ s'.Closed ∧ s'.created = 3 ∧ s'.refused = 3 := by
  obtain ⟨s, hs⟩ : ∃ s, runActs step .init closingRun = some s := ⟨_, rfl⟩
  obtain ⟨s', hs'⟩ : ∃ s', runActs step s lateRun = some s' := by
    cases hs
    exact ⟨_, rfl⟩
  have hret : 0 < s.returned := by
    cases hs
    decide
  obtain ⟨-, hclosed, hcreated, hrefused⟩ := closed_after_return hs hret hs'
  refine ⟨s, s', hs, hret, hs', hclosed, hcreated.trans ?_, hrefused.trans ?_⟩
  · cases hs
    rfl
  · cases hs
    rfl

end MMRelay.Database
