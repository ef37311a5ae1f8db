import MMRelay.Executor.DaemonInv

/-!
# Safety of the daemon-thread executor

* `Safe`: the properties of a state;
* `cancelled_step`: a cancelled future stays cancelled;
* **`executor_safe`**: every reachable state is safe, and what was cancelled is never started;
* `started_out_of_order`: two threads may start two items in the other order.
-/

namespace MMRelay.Executor.Daemon

variable {maxWorkers : ℕ} {s s' : State}

/-- `submit` has returned the future of the item. -/
def Accepted (s : State) (i : ℕ) : Prop :=
  i < s.futures.length ∧ ¬ (s.lock = some .submitting ∧ i + 1 = s.futures.length)

/-- What holds in every reachable state. -/
structure Safe (maxWorkers : ℕ) (s : State) : Prop where
  once : s.started.Nodup
  /-- Threads take the items in the order of submission. -/
  taken : s.taken.Pairwise (· < ·)
  /-- One thread starts them in that order, too. -/
  started : maxWorkers = 1 → s.started.Pairwise (· < ·)
  alive : s.workers.countP (fun x => decide (x ≠ .dead)) ≤ maxWorkers
  /-- No exit signal stands before an item, and while an accepted item is in the queue there is a
  thread that has taken no exit signal. -/
  served : ∀ pre post i, s.queue = pre ++ some i :: post →
    none ∉ pre ∧ (Accepted s i → ∃ x ∈ s.workers, x.active = true)
  /-- After a shutdown there is an exit signal for every thread that has not taken one. -/
  signalled : s.isShutdown = true → s.lock = none → s.activeCount ≤ s.signals
  uncancelled : ∀ i ∈ s.started, s.futures[i]? ≠ some .cancelled

theorem Inv.served (h : Inv maxWorkers s) {pre post : List (Option ℕ)} {i : ℕ}
    (hqueue : s.queue = pre ++ some i :: post) :
    none ∉ pre ∧ (Accepted s i → ∃ x ∈ s.workers, x.active = true) := by
  have hmem : i ∈ s.items := by
    rw [State.items, List.reduceOption_mem_iff, hqueue]
    simp
  constructor
  · intro hnone
    have htidy := h.queue.tidy
    rw [hqueue, List.pairwise_append] at htidy
    have hfalse := htidy.2.2 none hnone (some i) List.mem_cons_self rfl
    cases hfalse
  · rintro ⟨hlt, hreturned⟩
    have hne : s.workers ≠ [] := by
      intro hnil
      have hlen := h.threads.staffed hnil
      split_ifs at hlen with hlock
      · exact hreturned ⟨hlock, by omega⟩
      · omega
    obtain ⟨x, hx⟩ := List.exists_mem_of_ne_nil s.workers hne
    refine ⟨x, hx, ?_⟩
    by_contra hinactive
    have hnil := h.queue.exits x hx (by simpa using hinactive)
    rw [hnil] at hmem
    cases hmem

theorem Inv.safe (h : Inv maxWorkers s) : Safe maxWorkers s where
  once := h.items.once
  taken := (List.pairwise_append.mp h.queue.sorted).1
  started hone := (h.items.single (hone ▸ h.threads.few)).1
  alive := Nat.le_trans List.countP_le_length h.threads.few
  served _ _ _ hqueue := h.served hqueue
  signalled hshut hlock := h.threads.signalled s.signals (by simp [State.promised, hshut, hlock])
  uncancelled i hi hcancelled := by
    have hbegun := h.items.begun i hi
    rw [hcancelled] at hbegun
    simp at hbegun

theorem cancelled_step (h : Inv maxWorkers s) {a : Act} (hs : step maxWorkers s a = some s') {i : ℕ}
    (hi : s.futures[i]? = some .cancelled) : s'.futures[i]? = some .cancelled := by
  have hcancel : ∀ j, (s.cancel j).futures[i]? = some .cancelled := by
    intro j
    unfold State.cancel State.setFuture
    split_ifs with hj
    · have hne : j ≠ i := by
        rintro rfl
        rw [hi] at hj
        cases hj
      exact (List.getElem?_set_ne hne).trans hi
    · exact hi
  have hset : ∀ {j : ℕ} {x : Future}, s.futures[j]? ≠ some .cancelled →
      (s.futures.set j x)[i]? = some .cancelled := by
    intro j x hj
    have hne : j ≠ i := by
      rintro rfl
      exact hj hi
    exact (List.getElem?_set_ne hne).trans hi
  cases a with
  | submit =>
    simp only [step] at hs
    split_ifs at hs
    cases hs
    exact (List.getElem?_append_left (List.getElem?_eq_some_iff.mp hi).1).trans hi
  | begin w =>
    simp only [step] at hs
    split at hs
    · split_ifs at hs with hpending
      · cases hs
        exact hset (by rw [hpending]; simp)
      · cases hs
        exact hi
    · cases hs
  | finish w =>
    simp only [step] at hs
    split at hs
    · next j hw =>
      cases hs
      exact hset (by rw [h.items.running w j hw]; simp)
    · cases hs
  | cancel j =>
    cases hs
    exact hcancel j
  | drain =>
    simp only [step] at hs
    split at hs
    · cases hs
      exact hi
    · cases hs
      exact hi
    · next j queue _ _ =>
      cases hs
      have hj := hcancel j
      unfold State.cancel State.setFuture at hj ⊢
      split_ifs at hj ⊢
      · exact hj
      · exact hj
    · cases hs
  | startWorker =>
    simp only [step] at hs
    split_ifs at hs
    cases hs
    unfold State.startWorkerIfNeeded
    simp only
    split_ifs
    · exact hi
    · exact hi
  | shutdown cancelFutures =>
    simp only [step] at hs
    split at hs
    · cases hs
      exact hi
    · cases hs
  | signal =>
    simp only [step] at hs
    split at hs
    · cases hs
      exact hi
    · cases hs
      exact hi
    · cases hs
  | take w =>
    simp only [step] at hs
    split at hs
    · cases hs
      exact hi
    · cases hs
      exact hi
    · cases hs
  | leave w =>
    simp only [step] at hs
    split_ifs at hs
    cases hs
    exact hi
  | die w =>
    simp only [step] at hs
    split_ifs at hs
    cases hs
    exact hi

theorem cancelled_run (hmax : 0 < maxWorkers) (h : Inv maxWorkers s) {bs : List Act} {t : State}
    (hrun : runActs (step maxWorkers) s bs = some t) {i : ℕ}
    (hi : s.futures[i]? = some .cancelled) : Inv maxWorkers t ∧ t.futures[i]? = some .cancelled := by
  exact runActs_keeps (P := fun u => Inv maxWorkers u ∧ u.futures[i]? = some .cancelled)
    (fun u a u' hu hstep => ⟨inv_step hmax hu.1 hstep, cancelled_step hu.1 hstep hu.2⟩)
    ⟨h, hi⟩ hrun

/-- **The executor is safe.** In every state that callers, shutdowns and threads can reach, items are
taken in the order of submission, none is executed twice or after it was cancelled, and exit signals
come behind all items and suffice for all threads. -/
theorem executor_safe (maxWorkers : ℕ) (as : List Act) (s : State)
    (h : run maxWorkers as = some s) :
    Safe maxWorkers s ∧ ∀ i, s.futures[i]? = some .cancelled → ∀ bs t,
      runActs (step maxWorkers) s bs = some t → i ∉ t.started := by
  have hinv := inv_run h
  refine ⟨hinv.safe, fun i hi bs t hrun hstarted => ?_⟩
  have hmax : 0 < maxWorkers := by
    rw [run, create] at h
    by_contra hzero
    rw [if_pos (by omega)] at h
    cases h
  obtain ⟨ht, hcancelled⟩ := cancelled_run hmax hinv hrun hi
  exact ht.safe.uncancelled i hstarted hcancelled

/-- Two items and a shutdown that does not cancel, with one thread. -/
def oneThread : List Act :=
  [.submit, .startWorker, .submit, .startWorker, .shutdown false, .signal, .signal, .take 0, .begin 0]

def oneThreadState : State where
  queue := [some 1, none]
  threads := [0]
  isShutdown := true
  workers := [.running 0]
  futures := [.running, .pending]
  taken := [0]
  started := [0]

theorem executor_safe_oneThread : run 1 oneThread = some oneThreadState ∧ Safe 1 oneThreadState :=
  ⟨by decide, (executor_safe 1 oneThread oneThreadState (by decide)).1⟩

/-- Two threads take two items in order and start them in the other order. -/
theorem started_out_of_order : ∃ s,
    run 2 [.submit, .startWorker, .submit, .startWorker, .take 0, .take 1, .begin 1, .begin 0] =
      some s ∧ ¬ s.started.Pairwise (· < ·) := by
  refine ⟨⟨[], [0, 1], false, none, [.running 0, .running 1], [.running, .running], [0, 1], [1, 0]⟩,
    by decide, by decide⟩

end MMRelay.Executor.Daemon
