import MMRelay.Executor.Daemon
import Mathlib.Data.List.Nodup
import Mathlib.Data.List.ReduceOption

/-!
# What the daemon-thread executor keeps

Three invariants, each with a lemma for every operation that touches what it reads.

* `InvQueue`: items in order of submission, then exit signals;
* `InvThreads`: which threads there are, and how many exit signals are promised to them;
* `InvItems`: the items that threads hold, run and have started;
* **`inv_step`**, **`inv_run`**: every step keeps all three.
-/

namespace MMRelay.Executor.Daemon

namespace State

variable (s : State)

/-- The items in the queue. -/
def items : List ℕ := s.queue.reduceOption

/-- The exit signals in the queue. -/
def signals : ℕ := s.queue.count none

/-- The threads that have not taken an exit signal. -/
def activeCount : ℕ := s.workers.countP Worker.active

/-- The item that the thread took last and has not finished. -/
def itemOf (w : ℕ) : Option ℕ := s.workers[w]?.bind Worker.item?

/-- The exit signals that are in the queue or still to be put, once there was a shutdown. -/
def promised : Option ℕ :=
  match s.lock with
  | none => if s.isShutdown then some s.signals else none
  | some .submitting => none
  | some (.draining n) => some n
  | some (.signalling n) => some (s.signals + n)

end State

/-- The queue: items in order of submission, then exit signals. -/
structure InvQueue (s : State) : Prop where
  sorted : (s.taken ++ s.items).Pairwise (· < ·)
  bound : ∀ i ∈ s.taken ++ s.items, i < s.futures.length
  tidy : s.queue.Pairwise fun a b => a = none → b = none
  opened : s.isShutdown = false → none ∉ s.queue ∧ ∀ x ∈ s.workers, x.active = true
  exits : ∀ x ∈ s.workers, x.active = false → s.items = []
  locked : ∀ x, s.lock = some x → (s.isShutdown = false ↔ x = .submitting)

/-- The threads. -/
structure InvThreads (maxWorkers : ℕ) (s : State) : Prop where
  staffed : s.workers = [] → s.futures.length ≤ if s.lock = some .submitting then 1 else 0
  known : ∀ w x, s.workers[w]? = some x → x.active = true → w ∈ s.threads
  nodup : s.threads.Nodup
  ids : ∀ w ∈ s.threads, w < s.workers.length
  few : s.workers.length ≤ maxWorkers
  signalled : ∀ n, s.promised = some n → s.activeCount ≤ n

/-- The items that were taken. -/
structure InvItems (s : State) : Prop where
  unique : ∀ w w' i, s.itemOf w = some i → s.itemOf w' = some i → w = w'
  held : ∀ w i, s.itemOf w = some i → i ∈ s.taken
  fresh : ∀ (w i : ℕ), s.workers[w]? = some (.holding i) → i ∉ s.started
  running : ∀ (w i : ℕ), s.workers[w]? = some (.running i) → s.futures[i]? = some .running
  taken : ∀ i ∈ s.started, i ∈ s.taken
  once : s.started.Nodup
  begun : ∀ i ∈ s.started, s.futures[i]? = some .running ∨ s.futures[i]? = some .finished
  single : s.workers.length ≤ 1 → s.started.Pairwise (· < ·) ∧
    ∀ (w i : ℕ), s.workers[w]? = some (.holding i) → ∀ j ∈ s.started, j < i

variable {maxWorkers : ℕ} {s s' : State}

/-! ## Items -/

namespace InvItems

theorem congr (h : InvItems s) (hworkers : s'.workers = s.workers)
    (hfutures : s'.futures = s.futures) (htaken : s'.taken = s.taken)
    (hstarted : s'.started = s.started) : InvItems s' := by
  obtain ⟨unique, held, fresh, running, taken, once, begun, single⟩ := h
  constructor
  · simpa only [State.itemOf, hworkers] using unique
  · simpa only [State.itemOf, hworkers, htaken] using held
  · rwa [hworkers, hstarted]
  · rwa [hworkers, hfutures]
  · rwa [hstarted, htaken]
  · rwa [hstarted]
  · rwa [hstarted, hfutures]
  · rwa [hworkers, hstarted]

theorem itemOf_setWorker {w v i : ℕ} {x : Worker}
    (h : (s.setWorker w x).itemOf v = some i) :
    (v = w ∧ x.item? = some i) ∨ (v ≠ w ∧ s.itemOf v = some i) := by
  unfold State.itemOf State.setWorker at h
  rw [List.getElem?_set] at h
  split_ifs at h with hvw hlt
  · exact Or.inl ⟨hvw.symm, h⟩
  · cases h
  · exact Or.inr ⟨Ne.symm hvw, h⟩

theorem getElem?_setWorker {w v : ℕ} {x y : Worker}
    (h : (s.setWorker w x).workers[v]? = some y) : (v = w ∧ x = y) ∨ s.workers[v]? = some y := by
  unfold State.setWorker at h
  rw [List.getElem?_set] at h
  split_ifs at h with hvw hlt
  · exact Or.inl ⟨hvw.symm, Option.some.inj h⟩
  · exact Or.inr h

theorem release (h : InvItems s) {w : ℕ} {x : Worker} (hx : x.item? = none) :
    InvItems (s.setWorker w x) := by
  have hold : ∀ {v i}, (s.setWorker w x).itemOf v = some i → s.itemOf v = some i := by
    intro v i hv
    rcases itemOf_setWorker hv with ⟨-, hi⟩ | ⟨-, hi⟩
    · rw [hx] at hi
      cases hi
    · exact hi
  have hget : ∀ {v : ℕ} {y}, y.item? ≠ none → (s.setWorker w x).workers[v]? = some y →
      s.workers[v]? = some y := by
    intro v y hy hv
    rcases getElem?_setWorker hv with ⟨-, rfl⟩ | hv
    · exact absurd hx hy
    · exact hv
  refine { h with unique := ?_, held := ?_, fresh := ?_, running := ?_, single := ?_ }
  · exact fun v v' i hv hv' => h.unique v v' i (hold hv) (hold hv')
  · exact fun v i hv => h.held v i (hold hv)
  · exact fun v i hv => h.fresh v i (hget (by simp [Worker.item?]) hv)
  · exact fun v i hv => h.running v i (hget (by simp [Worker.item?]) hv)
  · intro hlen
    rw [State.setWorker, List.length_set] at hlen
    exact ⟨(h.single hlen).1, fun v i hv =>
      (h.single hlen).2 v i (hget (by simp [Worker.item?]) hv)⟩

theorem take (h : InvItems s) {w i : ℕ} (hw : s.workers[w]? = some .idle)
    (hnew : ∀ j ∈ s.taken, j < i) :
    InvItems { s.setWorker w (.holding i) with taken := s.taken ++ [i] } := by
  have hnot : i ∉ s.taken := fun hi => Nat.lt_irrefl i (hnew i hi)
  have hother : ∀ {v j}, (s.setWorker w (.holding i)).itemOf v = some j →
      (v = w ∧ j = i) ∨ (s.itemOf v = some j) := by
    intro v j hv
    rcases itemOf_setWorker hv with ⟨rfl, hj⟩ | ⟨-, hj⟩
    · exact Or.inl ⟨rfl, (Option.some.inj hj).symm⟩
    · exact Or.inr hj
  constructor
  · intro v v' j hv hv'
    rcases hother hv with ⟨hvw, hj⟩ | hold
    · rcases hother hv' with ⟨hvw', -⟩ | hold'
      · exact hvw.trans hvw'.symm
      · exact absurd (hj ▸ h.held v' j hold') hnot
    · rcases hother hv' with ⟨-, hj⟩ | hold'
      · exact absurd (hj ▸ h.held v j hold) hnot
      · exact h.unique v v' j hold hold'
  · intro v j hv
    rw [List.mem_append, List.mem_singleton]
    rcases hother hv with ⟨-, rfl⟩ | hv
    · exact Or.inr rfl
    · exact Or.inl (h.held v j hv)
  · intro v j hv
    rcases getElem?_setWorker hv with ⟨-, heq⟩ | hv
    · cases heq
      exact fun hi => hnot (h.taken i hi)
    · exact h.fresh v j hv
  · intro v j hv
    rcases getElem?_setWorker hv with ⟨-, heq⟩ | hv
    · cases heq
    · exact h.running v j hv
  · exact fun j hj => List.mem_append_left _ (h.taken j hj)
  · exact h.once
  · exact h.begun
  · intro hlen
    have hlen' : s.workers.length ≤ 1 := by simpa [State.setWorker] using hlen
    refine ⟨(h.single hlen').1, fun v j hv k hk => ?_⟩
    rcases getElem?_setWorker hv with ⟨-, heq⟩ | hv
    · cases heq
      exact hnew k (h.taken k hk)
    · exact (h.single hlen').2 v j hv k hk

theorem start (h : InvItems s) {w i : ℕ} (hw : s.workers[w]? = some (.holding i))
    (hi : s.futures[i]? = some .pending) :
    InvItems { (s.setWorker w (.running i)).setFuture i .running with
      started := s.started ++ [i] } := by
  have hnot := h.fresh w i hw
  have hitem : s.itemOf w = some i := by
    rw [State.itemOf, hw]
    rfl
  have hsame : ∀ {v j}, (s.setWorker w (.running i)).itemOf v = some j → s.itemOf v = some j := by
    intro v j hv
    rcases itemOf_setWorker hv with ⟨rfl, hj⟩ | ⟨-, hj⟩
    · rw [← hj, hitem]
      rfl
    · exact hj
  have hlt : i < s.futures.length := (List.getElem?_eq_some_iff.mp hi).1
  have hfuture : ∀ {j : ℕ}, s.futures[j]? = some .running ∨ s.futures[j]? = some .finished →
      (s.futures.set i .running)[j]? = s.futures[j]? := by
    intro j hj
    have hne : i ≠ j := by
      rintro rfl
      rw [hi] at hj
      simp at hj
    exact List.getElem?_set_ne hne
  have hself : (s.futures.set i .running)[i]? = some .running := List.getElem?_set_self hlt
  constructor
  · exact fun v v' j hv hv' => h.unique v v' j (hsame hv) (hsame hv')
  · exact fun v j hv => h.held v j (hsame hv)
  · intro v j hv hj
    rcases getElem?_setWorker hv with ⟨-, heq⟩ | hv'
    · cases heq
    · rcases List.mem_append.mp hj with hj | hj
      · exact h.fresh v j hv' hj
      · rw [List.mem_singleton.mp hj] at hv'
        have hvw : v = w := h.unique v w i (by rw [State.itemOf, hv']; rfl) hitem
        subst hvw
        rw [State.setFuture, State.setWorker, List.getElem?_set_self
          (List.getElem?_eq_some_iff.mp hw).1] at hv
        cases hv
  · intro v j hv
    rcases getElem?_setWorker hv with ⟨-, heq⟩ | hv
    · cases heq
      exact hself
    · exact (hfuture (Or.inl (h.running v j hv))).trans (h.running v j hv)
  · intro j hj
    rcases List.mem_append.mp hj with hj | hj
    · exact h.taken j hj
    · rw [List.mem_singleton.mp hj]
      exact h.held w i hitem
  · rw [List.nodup_append]
    refine ⟨h.once, List.nodup_singleton i, fun j hj k hk => ?_⟩
    rw [List.mem_singleton.mp hk]
    rintro rfl
    exact hnot hj
  · intro j hj
    rcases List.mem_append.mp hj with hj | hj
    · show (s.futures.set i .running)[j]? = _ ∨ (s.futures.set i .running)[j]? = _
      rw [show (s.futures.set i .running)[j]? = s.futures[j]? from hfuture (h.begun j hj)]
      exact h.begun j hj
    · rw [List.mem_singleton.mp hj]
      exact Or.inl hself
  · intro hlen
    have hlen' : s.workers.length ≤ 1 := by simpa [State.setWorker, State.setFuture] using hlen
    obtain ⟨hpairwise, hlast⟩ := h.single hlen'
    constructor
    · rw [List.pairwise_append]
      refine ⟨hpairwise, List.pairwise_singleton _ _, fun j hj k hk => ?_⟩
      rw [List.mem_singleton.mp hk]
      exact hlast w i hw j hj
    · intro v j hv k hk
      have hw0 := (List.getElem?_eq_some_iff.mp hw).1
      rcases getElem?_setWorker hv with ⟨-, heq⟩ | hv'
      · cases heq
      · have hv0 := (List.getElem?_eq_some_iff.mp hv').1
        have hvw : v = w := by omega
        subst hvw
        rw [State.setFuture, State.setWorker, List.getElem?_set_self hw0] at hv
        cases hv

theorem futures (h : InvItems s) {futures : List Future}
    (hsame : ∀ (i : ℕ), s.futures[i]? = some .running ∨ s.futures[i]? = some .finished →
      futures[i]? = s.futures[i]?) : InvItems { s with futures := futures } := by
  refine { h with running := ?_, begun := ?_ }
  · intro w i hw
    exact (hsame i (Or.inl (h.running w i hw))).trans (h.running w i hw)
  · intro i hi
    have hbegun := h.begun i hi
    rw [← hsame i hbegun] at hbegun
    exact hbegun

theorem cancel (h : InvItems s) (i : ℕ) : InvItems (s.cancel i) := by
  unfold State.cancel
  split_ifs with hi
  · refine h.futures fun j hj => List.getElem?_set_ne ?_
    rintro rfl
    rw [hi] at hj
    simp at hj
  · exact h

theorem finish (h : InvItems s) {w i : ℕ} (hw : s.workers[w]? = some (.running i)) :
    InvItems ((s.setWorker w .idle).setFuture i .finished) := by
  have hrelease := h.release (w := w) (x := .idle) rfl
  have hrunning := h.running w i hw
  have hlt : i < s.futures.length := (List.getElem?_eq_some_iff.mp hrunning).1
  have hitem : s.itemOf w = some i := by
    rw [State.itemOf, hw]
    rfl
  refine { hrelease with running := ?_, begun := ?_ }
  · intro v j hv
    have hv' : s.workers[v]? = some (.running j) ∧ v ≠ w := by
      unfold State.setFuture State.setWorker at hv
      simp only [List.getElem?_set] at hv
      split_ifs at hv with hvw hlen
      · cases hv
      · exact ⟨hv, Ne.symm hvw⟩
    have hne : i ≠ j := by
      rintro rfl
      exact hv'.2 (h.unique v w i (by rw [State.itemOf, hv'.1]; rfl) hitem)
    exact (List.getElem?_set_ne hne).trans (h.running v j hv'.1)
  · intro j hj
    show (s.futures.set i .finished)[j]? = _ ∨ (s.futures.set i .finished)[j]? = _
    by_cases hij : i = j
    · subst hij
      exact Or.inr (List.getElem?_set_self hlt)
    · rw [List.getElem?_set_ne hij]
      exact h.begun j hj

theorem startWorker (h : InvItems s) : InvItems { s with workers := s.workers ++ [.idle] } := by
  have hget : ∀ {v : ℕ} {y}, y ≠ .idle → (s.workers ++ [Worker.idle])[v]? = some y →
      s.workers[v]? = some y := by
    intro v y hy hv
    rw [List.getElem?_append] at hv
    split_ifs at hv with hlt
    · exact hv
    · have hmem := List.mem_of_getElem? hv
      rw [List.mem_singleton] at hmem
      exact absurd hmem hy
  have hitem : ∀ {v i}, State.itemOf { s with workers := s.workers ++ [.idle] } v = some i →
      s.itemOf v = some i := by
    intro v i hv
    obtain ⟨x, hx, hi⟩ := Option.bind_eq_some_iff.mp hv
    refine Option.bind_eq_some_iff.mpr ⟨x, hget ?_ hx, hi⟩
    rintro rfl
    cases hi
  refine { h with unique := ?_, held := ?_, fresh := ?_, running := ?_, single := ?_ }
  · exact fun v v' i hv hv' => h.unique v v' i (hitem hv) (hitem hv')
  · exact fun v i hv => h.held v i (hitem hv)
  · exact fun v i hv => h.fresh v i (hget (by simp) hv)
  · exact fun v i hv => h.running v i (hget (by simp) hv)
  · intro hlen
    have hlen' : s.workers.length ≤ 1 := by
      simp only [List.length_append, List.length_singleton] at hlen
      omega
    exact ⟨(h.single hlen').1, fun v i hv => (h.single hlen').2 v i (hget (by simp) hv)⟩

end InvItems

/-! ## The queue -/

namespace InvQueue

theorem congr (h : InvQueue s) (hqueue : s'.queue = s.queue) (htaken : s'.taken = s.taken)
    (hfutures : s'.futures.length = s.futures.length)
    (hworkers : ∀ x' ∈ s'.workers, x'.active = false → ∃ x ∈ s.workers, x.active = false)
    (hshut : s'.isShutdown = false → s.isShutdown = false)
    (hlock : ∀ x, s'.lock = some x → (s'.isShutdown = false ↔ x = .submitting)) :
    InvQueue s' := by
  have hitems : s'.items = s.items := by rw [State.items, hqueue, State.items]
  constructor
  · rw [htaken, hitems]
    exact h.sorted
  · rw [htaken, hitems, hfutures]
    exact h.bound
  · rw [hqueue]
    exact h.tidy
  · intro hopen
    obtain ⟨hnone, hactive⟩ := h.opened (hshut hopen)
    refine ⟨by rwa [hqueue], fun x' hx' => ?_⟩
    by_contra hinactive
    obtain ⟨x, hx, hfalse⟩ := hworkers x' hx' (by simpa using hinactive)
    rw [hactive x hx] at hfalse
    cases hfalse
  · intro x' hx' hinactive
    obtain ⟨x, hx, hfalse⟩ := hworkers x' hx' hinactive
    rw [hitems]
    exact h.exits x hx hfalse
  · exact hlock

theorem isShutdown (h : InvQueue s) {x : Section} (hlock : s.lock = some x) (hx : x ≠ .submitting) :
    s.isShutdown = true := by
  by_contra hopen
  exact hx ((h.locked x hlock).mp (by simpa using hopen))

theorem setWorker_active {w : ℕ} {x y : Worker} (hw : s.workers[w]? = some y)
    (hxy : x.active = y.active) :
    ∀ x' ∈ (s.setWorker w x).workers, x'.active = false → ∃ z ∈ s.workers, z.active = false := by
  intro x' hx' hinactive
  rcases List.mem_or_eq_of_mem_set hx' with hx' | rfl
  · exact ⟨x', hx', hinactive⟩
  · exact ⟨y, List.mem_of_getElem? hw, hxy ▸ hinactive⟩

theorem setWorker (h : InvQueue s) {w : ℕ} {x y : Worker} (hw : s.workers[w]? = some y)
    (hxy : x.active = y.active) : InvQueue (s.setWorker w x) :=
  h.congr rfl rfl rfl (setWorker_active hw hxy) id h.locked

theorem submit (h : InvQueue s) (hopen : s.isShutdown = false) :
    InvQueue { s with queue := s.queue ++ [some s.futures.length]
                      futures := s.futures ++ [.pending], lock := some .submitting } := by
  obtain ⟨hnone, hactive⟩ := h.opened hopen
  have hitems : (s.queue ++ [some s.futures.length]).reduceOption = s.items ++ [s.futures.length] := by
    rw [List.reduceOption_append]
    rfl
  constructor
  · show (s.taken ++ (s.queue ++ [some s.futures.length]).reduceOption).Pairwise (· < ·)
    rw [hitems, ← List.append_assoc, List.pairwise_append]
    refine ⟨h.sorted, List.pairwise_singleton _ _, fun i hi j hj => ?_⟩
    rw [List.mem_singleton.mp hj]
    exact h.bound i hi
  · intro i hi
    show i < (s.futures ++ [Future.pending]).length
    change i ∈ s.taken ++ (s.queue ++ [some s.futures.length]).reduceOption at hi
    rw [hitems, ← List.append_assoc, List.mem_append, List.mem_singleton] at hi
    rw [List.length_append, List.length_singleton]
    rcases hi with hi | rfl
    · have := h.bound i hi
      omega
    · omega
  · show (s.queue ++ [some s.futures.length]).Pairwise _
    rw [List.pairwise_append]
    refine ⟨h.tidy, List.pairwise_singleton _ _, fun a ha b _ hnil => ?_⟩
    exact absurd (hnil ▸ ha) hnone
  · refine fun _ => ⟨fun hmem => ?_, hactive⟩
    rcases List.mem_append.mp hmem with hmem | hmem
    · exact hnone hmem
    · simp at hmem
  · intro x hx hinactive
    rw [hactive x hx] at hinactive
    cases hinactive
  · intro x hx
    cases hx
    exact iff_of_true hopen rfl

theorem pop (h : InvQueue s) {head : Option ℕ} {queue : List (Option ℕ)}
    (hqueue : s.queue = head :: queue) :
    InvQueue { s with queue := queue } := by
  have hitems : s.items = head.toList ++ queue.reduceOption := by
    rw [State.items, hqueue]
    cases head with
    | none => rfl
    | some i => rfl
  have hsub : queue.reduceOption.Sublist s.items := by
    rw [hitems]
    exact List.sublist_append_right _ _
  constructor
  · exact h.sorted.sublist (hsub.append_left _)
  · exact fun i hi => h.bound i ((hsub.append_left _).subset hi)
  · have htidy := h.tidy
    rw [hqueue] at htidy
    exact (List.pairwise_cons.mp htidy).2
  · intro hopen
    obtain ⟨hnone, hactive⟩ := h.opened hopen
    rw [hqueue] at hnone
    exact ⟨fun hmem => hnone (List.mem_cons_of_mem _ hmem), hactive⟩
  · intro x hx hinactive
    have hnil := h.exits x hx hinactive
    rw [hitems, List.append_eq_nil_iff] at hnil
    exact hnil.2
  · exact h.locked

theorem take (h : InvQueue s) {w i : ℕ} {queue : List (Option ℕ)} (hw : s.workers[w]? = some .idle)
    (hqueue : s.queue = some i :: queue) :
    InvQueue { s.setWorker w (.holding i) with queue := queue, taken := s.taken ++ [i] } := by
  have hpop := h.pop hqueue
  have hitems : s.items = i :: queue.reduceOption := by
    rw [State.items, hqueue]
    rfl
  have hall : (s.taken ++ [i]) ++ queue.reduceOption = s.taken ++ s.items := by
    rw [hitems, List.append_assoc]
    rfl
  have hworkers := setWorker_active (x := .holding i) hw rfl
  constructor
  · show ((s.taken ++ [i]) ++ queue.reduceOption).Pairwise (· < ·)
    rw [hall]
    exact h.sorted
  · intro j hj
    change j ∈ (s.taken ++ [i]) ++ queue.reduceOption at hj
    rw [hall] at hj
    exact h.bound j hj
  · exact hpop.tidy
  · intro hopen
    obtain ⟨hnone, hactive⟩ := hpop.opened hopen
    refine ⟨hnone, fun x' hx' => ?_⟩
    by_contra hinactive
    obtain ⟨x, hx, hfalse⟩ := hworkers x' hx' (by simpa using hinactive)
    rw [hactive x hx] at hfalse
    cases hfalse
  · intro x' hx' hinactive
    obtain ⟨x, hx, hfalse⟩ := hworkers x' hx' hinactive
    exact hpop.exits x hx hfalse
  · exact h.locked

theorem takeSignal (h : InvQueue s) {w : ℕ} {queue : List (Option ℕ)}
    (hqueue : s.queue = none :: queue) : InvQueue { s.setWorker w .leaving with queue := queue } := by
  have hpop := h.pop hqueue
  have hshut : s.isShutdown = true := by
    by_contra hopen
    have hnone := (h.opened (by simpa using hopen)).1
    rw [hqueue] at hnone
    exact hnone List.mem_cons_self
  have hnil : queue.reduceOption = [] := by
    have htidy := h.tidy
    rw [hqueue] at htidy
    rw [List.eq_nil_iff_forall_not_mem]
    intro i hi
    have hnone := (List.pairwise_cons.mp htidy).1 _ (List.reduceOption_mem_iff.mp hi) rfl
    cases hnone
  refine { hpop with opened := ?_, exits := ?_ }
  · intro hopen
    change s.isShutdown = false at hopen
    rw [hshut] at hopen
    cases hopen
  · exact fun _ _ _ => hnil

theorem signal (h : InvQueue s) (hshut : s.isShutdown = true) :
    InvQueue { s with queue := s.queue ++ [none] } := by
  have hitems : (s.queue ++ [none]).reduceOption = s.items := by
    rw [List.reduceOption_append]
    exact List.append_nil _
  constructor
  · show (s.taken ++ (s.queue ++ [none]).reduceOption).Pairwise (· < ·)
    rw [hitems]
    exact h.sorted
  · intro i hi
    change i ∈ s.taken ++ (s.queue ++ [none]).reduceOption at hi
    rw [hitems] at hi
    exact h.bound i hi
  · show (s.queue ++ [none]).Pairwise _
    rw [List.pairwise_append]
    refine ⟨h.tidy, List.pairwise_singleton _ _, fun a _ b hb _ => List.mem_singleton.mp hb⟩
  · intro hopen
    change s.isShutdown = false at hopen
    rw [hshut] at hopen
    cases hopen
  · intro x hx hinactive
    show (s.queue ++ [none]).reduceOption = []
    rw [hitems]
    exact h.exits x hx hinactive
  · exact h.locked

end InvQueue

/-! ## The threads -/

theorem countP_le_length {α : Type} {p : α → Bool} {l : List α} {ids : List ℕ}
    (h : ∀ w x, l[w]? = some x → p x = true → w ∈ ids) : l.countP p ≤ ids.length := by
  have hnodup : ((l.zipIdx.filter fun e => p e.1).map Prod.snd).Nodup := by
    have hsub := (List.filter_sublist (l := l.zipIdx) (p := fun e => p e.1)).map Prod.snd
    refine List.Nodup.sublist hsub ?_
    rw [List.zipIdx_map_snd]
    exact List.nodup_range'
  have hcount : ((l.zipIdx.filter fun e => p e.1).map Prod.snd).length = l.countP p := by
    rw [List.length_map, ← List.countP_eq_length_filter]
    conv_rhs => rw [← List.zipIdx_map_fst 0 l, List.countP_map]
    rfl
  rw [← hcount]
  refine hnodup.length_le_of_subset fun w hw => ?_
  obtain ⟨⟨x, i⟩, hmem, rfl⟩ := List.mem_map.mp hw
  obtain ⟨hmem, hp⟩ := List.mem_filter.mp hmem
  exact h i x (List.mem_zipIdx_iff_getElem?.mp hmem) hp

namespace InvThreads

theorem activeCount_setWorker {w : ℕ} {x y : Worker} (hw : s.workers[w]? = some y) :
    (s.setWorker w x).activeCount + (if y.active then 1 else 0) =
      s.activeCount + (if x.active then 1 else 0) := by
  obtain ⟨hlt, hy⟩ := List.getElem?_eq_some_iff.mp hw
  have hpos : y.active = true → 0 < s.workers.countP Worker.active := fun hactive =>
    List.countP_pos_iff.mpr ⟨y, List.mem_of_getElem? hw, hactive⟩
  unfold State.activeCount State.setWorker
  rw [List.countP_set hlt, hy]
  split_ifs with h1 h2
  · have := hpos h1
    omega
  · have := hpos h1
    omega
  · omega
  · omega

theorem activeCount_le (h : InvThreads maxWorkers s) : s.activeCount ≤ s.threads.length :=
  countP_le_length h.known

theorem setWorker (h : InvThreads maxWorkers s) {w : ℕ} {x y : Worker}
    (hw : s.workers[w]? = some y) (hxy : x.active = true → y.active = true) :
    InvThreads maxWorkers (s.setWorker w x) := by
  have hlen : (s.setWorker w x).workers.length = s.workers.length := List.length_set
  have hcount : (s.setWorker w x).activeCount ≤ s.activeCount := by
    have hset := activeCount_setWorker (x := x) hw
    cases hx : x.active with
    | false =>
      simp only [hx, Bool.false_eq_true, if_false] at hset
      split_ifs at hset <;> omega
    | true =>
      simp only [hx, hxy hx, if_true] at hset
      omega
  constructor
  · intro hnil
    refine h.staffed ?_
    rw [← List.length_eq_zero_iff, hlen] at hnil
    exact List.length_eq_zero_iff.mp hnil
  · intro v z hv hz
    rcases InvItems.getElem?_setWorker hv with ⟨rfl, rfl⟩ | hv
    · exact h.known v y hw (hxy hz)
    · exact h.known v z hv hz
  · exact h.nodup
  · intro v hv
    rw [hlen]
    exact h.ids v hv
  · rw [hlen]
    exact h.few
  · exact fun n hn => Nat.le_trans hcount (h.signalled n hn)

theorem submit (h : InvThreads maxWorkers s) (hlock : s.lock = none) :
    InvThreads maxWorkers { s with queue := s.queue ++ [some s.futures.length]
                                   futures := s.futures ++ [.pending]
                                   lock := some .submitting } := by
  refine { h with staffed := ?_, signalled := ?_ }
  · intro hnil
    have hlen := h.staffed hnil
    rw [hlock] at hlen
    simp at hlen
    simp [hlen]
  · intro n hn
    cases hn

/-- `submit` starts a thread unless as many are alive as are allowed. -/
theorem startWorker (h : InvThreads maxWorkers s) (hopen : s.isShutdown = false)
    (hactive : ∀ x ∈ s.workers, x.active = true) (hmax : 0 < maxWorkers) :
    InvThreads maxWorkers { s.startWorkerIfNeeded maxWorkers with lock := none } := by
  have halive : ∀ w x, s.workers[w]? = some x → x.active = true →
      w ∈ s.threads.filter s.isAlive := by
    intro w x hw hx
    refine List.mem_filter.mpr ⟨h.known w x hw hx, ?_⟩
    rw [State.isAlive, hw, decide_eq_true_eq]
    rintro heq
    rw [Option.some.inj heq] at hx
    cases hx
  have hcount : s.workers.length ≤ (s.threads.filter s.isAlive).length := by
    rw [← List.countP_eq_length.mpr hactive]
    exact countP_le_length halive
  have hids : ∀ w ∈ s.threads.filter s.isAlive, w < s.workers.length := fun w hw =>
    h.ids w (List.mem_of_mem_filter hw)
  unfold State.startWorkerIfNeeded
  simp only
  split_ifs with hfull
  · refine ⟨fun hnil => ?_, halive, h.nodup.filter _, hids, h.few, fun n hn => ?_⟩
    · -- with no thread at all, a thread is needed
      have hpos : 0 < (s.threads.filter s.isAlive).length := by omega
      obtain ⟨w, hw⟩ := List.exists_mem_of_length_pos hpos
      have hlt := hids w hw
      change s.workers = [] at hnil
      rw [hnil] at hlt
      cases hlt
    · simp [State.promised, hopen] at hn
  · constructor
    · intro hnil
      simp at hnil
    · intro w x hw hx
      change (s.workers ++ [.idle])[w]? = some x at hw
      rw [List.mem_append, List.mem_singleton]
      rw [List.getElem?_append] at hw
      split_ifs at hw with hlt
      · exact Or.inl (halive w x hw hx)
      · have hlt' := (List.getElem?_eq_some_iff.mp hw).1
        simp only [List.length_singleton] at hlt'
        exact Or.inr (by omega)
    · show (s.threads.filter s.isAlive ++ [s.workers.length]).Nodup
      rw [List.nodup_append]
      refine ⟨h.nodup.filter _, List.nodup_singleton _, fun w hw v hv => ?_⟩
      rw [List.mem_singleton.mp hv]
      have := hids w hw
      omega
    · intro w hw
      simp only [List.length_append, List.length_singleton]
      rcases List.mem_append.mp hw with hw | hw
      · have := hids w hw
        omega
      · rw [List.mem_singleton.mp hw]
        omega
    · simp only [List.length_append, List.length_singleton]
      omega
    · intro n hn
      simp [State.promised, hopen] at hn

theorem relock (h : InvThreads maxWorkers s) (hworkers : s'.workers = s.workers)
    (hthreads : s'.threads = s.threads) (hfutures : s'.futures.length = s.futures.length)
    (hlock : s.lock ≠ some .submitting)
    (hsignalled : ∀ n, s'.promised = some n → s.activeCount ≤ n) : InvThreads maxWorkers s' := by
  have hcount : s'.activeCount = s.activeCount := by rw [State.activeCount, hworkers, State.activeCount]
  constructor
  · intro hnil
    rw [hworkers] at hnil
    have hlen := h.staffed hnil
    rw [if_neg hlock] at hlen
    rw [hfutures]
    omega
  · rw [hworkers, hthreads]
    exact h.known
  · rw [hthreads]
    exact h.nodup
  · rw [hworkers, hthreads]
    exact h.ids
  · rw [hworkers]
    exact h.few
  · rw [hcount]
    exact hsignalled

theorem shutdown (h : InvThreads maxWorkers s) (hlock : s.lock = none) (cancelFutures : Bool) :
    InvThreads maxWorkers
      { s with isShutdown := true
               lock := some (if cancelFutures then .draining s.threads.length
                 else .signalling s.threads.length) } := by
  refine h.relock rfl rfl rfl (by simp [hlock]) fun n hn => ?_
  have hle := h.activeCount_le
  cases cancelFutures with
  | true =>
    cases hn
    exact hle
  | false =>
    cases hn
    exact Nat.le_trans hle (Nat.le_add_left _ _)

theorem take (h : InvThreads maxWorkers s) {w i : ℕ} {queue : List (Option ℕ)}
    (hw : s.workers[w]? = some .idle) (hqueue : s.queue = some i :: queue) :
    InvThreads maxWorkers
      { s.setWorker w (.holding i) with queue := queue, taken := s.taken ++ [i] } := by
  have hset := h.setWorker (x := .holding i) hw fun _ => rfl
  have hsignals : s.signals = queue.count none := by
    rw [State.signals, hqueue, List.count_cons_of_ne (by simp)]
  refine { hset with signalled := fun n hn => hset.signalled n ?_ }
  rw [← hn, State.promised, State.promised]
  simp only [State.setWorker]
  change (match s.lock with
    | none => if s.isShutdown then some s.signals else none
    | some .submitting => none
    | some (.draining n) => some n
    | some (.signalling n) => some (s.signals + n)) = _
  rw [hsignals]
  rfl

theorem takeSignal (h : InvThreads maxWorkers s) {w : ℕ} {queue : List (Option ℕ)}
    (hw : s.workers[w]? = some .idle) (hqueue : s.queue = none :: queue) :
    InvThreads maxWorkers { s.setWorker w .leaving with queue := queue } := by
  have hset := h.setWorker (x := .leaving) hw (by simp [Worker.active])
  have hcount := activeCount_setWorker (x := .leaving) hw
  have hsignals : s.signals = queue.count none + 1 := by
    rw [State.signals, hqueue, List.count_cons_self]
  simp only [Worker.active, Bool.false_eq_true, if_false, if_true] at hcount
  refine { hset with signalled := ?_ }
  intro n hn
  show (s.setWorker w .leaving).activeCount ≤ n
  cases hlock : s.lock with
  | none =>
    simp only [State.promised, State.setWorker, hlock] at hn
    split_ifs at hn with hshut
    cases hn
    have hold := h.signalled s.signals (by simp [State.promised, hlock, hshut])
    show _ ≤ queue.count none
    omega
  | some x =>
    cases x with
    | submitting => simp [State.promised, State.setWorker, hlock] at hn
    | draining k =>
      simp only [State.promised, State.setWorker, hlock, Option.some.injEq] at hn
      have hold := h.signalled k (by simp [State.promised, hlock])
      omega
    | signalling k =>
      simp only [State.promised, State.setWorker, hlock, Option.some.injEq] at hn
      have hold := h.signalled (s.signals + k) (by simp [State.promised, hlock])
      change queue.count none + k = n at hn
      omega

theorem leave (h : InvThreads maxWorkers s) {w : ℕ} (hw : s.workers[w]? = some .leaving) :
    InvThreads maxWorkers { s.setWorker w .left with threads := s.threads.filter (· ≠ w) } := by
  have hset := h.setWorker (x := .left) hw (by simp [Worker.active])
  refine { hset with known := ?_, nodup := ?_, ids := ?_ }
  · intro v x hv hx
    have hvw : v ≠ w := by
      rintro rfl
      have hlt := (List.getElem?_eq_some_iff.mp hw).1
      change (s.workers.set v .left)[v]? = some x at hv
      rw [List.getElem?_set_self hlt] at hv
      rw [← Option.some.inj hv] at hx
      cases hx
    exact List.mem_filter.mpr ⟨hset.known v x hv hx, by simpa using hvw⟩
  · exact h.nodup.filter _
  · exact fun v hv => hset.ids v (List.mem_of_mem_filter hv)

end InvThreads

/-! ## Runs -/

/-- What every step keeps. -/
structure Inv (maxWorkers : ℕ) (s : State) : Prop where
  queue : InvQueue s
  threads : InvThreads maxWorkers s
  items : InvItems s

theorem inv_init {maxWorkers : ℕ} : Inv maxWorkers {} where
  queue := ⟨List.Pairwise.nil, by simp [State.items], List.Pairwise.nil, by simp, by simp, by simp⟩
  threads := ⟨by simp, by simp, List.nodup_nil, by simp, Nat.zero_le _, by simp [State.promised]⟩
  items := by
    refine ⟨?_, ?_, ?_, ?_, ?_, List.nodup_nil, ?_, ?_⟩ <;> simp [State.itemOf]

theorem Inv.cancel (h : Inv maxWorkers s) (i : ℕ) : Inv maxWorkers (s.cancel i) := by
  refine ⟨?_, ?_, h.items.cancel i⟩
  · have hlen : (s.cancel i).futures.length = s.futures.length := by
      unfold State.cancel State.setFuture
      split_ifs
      · exact List.length_set
      · rfl
    unfold State.cancel State.setFuture at hlen ⊢
    split_ifs at hlen ⊢
    · exact h.queue.congr rfl rfl hlen (fun x hx hx' => ⟨x, hx, hx'⟩) id h.queue.locked
    · exact h.queue
  · unfold State.cancel State.setFuture
    split_ifs
    · refine { h.threads with staffed := fun hnil => ?_ }
      show (s.futures.set i _).length ≤ _
      rw [List.length_set]
      exact h.threads.staffed hnil
    · exact h.threads

theorem inv_drain (h : Inv maxWorkers s) (hs : step maxWorkers s .drain = some s') :
    Inv maxWorkers s' := by
  simp only [step] at hs
  split at hs
  · next n hlock hqueue =>
    cases hs
    have hle := h.threads.signalled n (by simp [State.promised, hlock])
    refine ⟨?_, ?_, ?_⟩
    · have hshut := h.queue.isShutdown hlock (by simp)
      exact h.queue.congr rfl rfl rfl (fun x hx hx' => ⟨x, hx, hx'⟩) id (by simp [hshut])
    · refine h.threads.relock rfl rfl rfl (by simp [hlock]) fun k hk => ?_
      cases hk
      exact Nat.le_trans hle (Nat.le_add_left _ _)
    · exact h.items.congr rfl rfl rfl rfl
  · next n queue hlock hqueue =>
    cases hs
    have hle := h.threads.signalled n (by simp [State.promised, hlock])
    refine ⟨h.queue.pop hqueue, ?_, h.items.congr rfl rfl rfl rfl⟩
    refine h.threads.relock rfl rfl rfl (by simp [hlock]) fun k hk => ?_
    simp only [State.promised, hlock, Option.some.injEq] at hk
    rwa [← hk]
  · next n i queue hlock hqueue =>
    cases hs
    have hle := h.threads.signalled n (by simp [State.promised, hlock])
    have hpop : Inv maxWorkers { s with queue := queue } := by
      refine ⟨h.queue.pop hqueue, ?_, h.items.congr rfl rfl rfl rfl⟩
      refine h.threads.relock rfl rfl rfl (by simp [hlock]) fun k hk => ?_
      simp only [State.promised, hlock, Option.some.injEq] at hk
      rwa [← hk]
    exact hpop.cancel i
  · cases hs

theorem inv_signal (h : Inv maxWorkers s) (hs : step maxWorkers s .signal = some s') :
    Inv maxWorkers s' := by
  simp only [step] at hs
  split at hs
  · next hlock =>
    cases hs
    have hle := h.threads.signalled s.signals (by simp [State.promised, hlock])
    refine ⟨?_, ?_, h.items.congr rfl rfl rfl rfl⟩
    · exact h.queue.congr rfl rfl rfl (fun x hx hx' => ⟨x, hx, hx'⟩) id (by simp)
    · refine h.threads.relock rfl rfl rfl (by simp [hlock]) fun k hk => ?_
      simp only [State.promised] at hk
      split_ifs at hk
      cases hk
      exact hle
  · next n hlock =>
    cases hs
    have hle := h.threads.signalled (s.signals + (n + 1)) (by simp [State.promised, hlock])
    have hsignals : (s.queue ++ [none]).count none = s.signals + 1 := by
      rw [List.count_append, List.count_singleton_self, State.signals]
    refine ⟨?_, ?_, h.items.congr rfl rfl rfl rfl⟩
    · have hshut := h.queue.isShutdown hlock (by simp)
      exact (h.queue.signal hshut).congr rfl rfl rfl (fun x hx hx' => ⟨x, hx, hx'⟩) id
        (by simp [hshut])
    · refine h.threads.relock rfl rfl rfl (by simp [hlock]) fun k hk => ?_
      simp only [State.promised, Option.some.injEq] at hk
      change (s.queue ++ [none]).count none + n = k at hk
      omega
  · cases hs

theorem inv_take {w : ℕ} (h : Inv maxWorkers s) (hs : step maxWorkers s (.take w) = some s') :
    Inv maxWorkers s' := by
  simp only [step] at hs
  split at hs
  · next i queue hw hqueue =>
    cases hs
    have hitems : s.items = i :: queue.reduceOption := by
      rw [State.items, hqueue]
      rfl
    have hnew : ∀ j ∈ s.taken, j < i := by
      intro j hj
      have hsorted := h.queue.sorted
      rw [hitems, List.pairwise_append] at hsorted
      exact hsorted.2.2 j hj i List.mem_cons_self
    exact ⟨h.queue.take hw hqueue, h.threads.take hw hqueue,
      (h.items.take hw hnew).congr rfl rfl rfl rfl⟩
  · next queue hw hqueue =>
    cases hs
    exact ⟨h.queue.takeSignal hqueue, h.threads.takeSignal hw hqueue,
      (h.items.release rfl).congr rfl rfl rfl rfl⟩
  · cases hs

theorem inv_begin {w : ℕ} (h : Inv maxWorkers s) (hs : step maxWorkers s (.begin w) = some s') :
    Inv maxWorkers s' := by
  simp only [step] at hs
  split at hs
  · next i hw =>
    split_ifs at hs with hpending
    · cases hs
      refine ⟨?_, ?_, h.items.start hw hpending⟩
      · exact (h.queue.setWorker (x := .running i) hw rfl).congr rfl rfl List.length_set
          (fun x hx hx' => ⟨x, hx, hx'⟩) id h.queue.locked
      · have hset := h.threads.setWorker (x := .running i) hw fun _ => rfl
        refine { hset with staffed := fun hnil => ?_ }
        show (s.futures.set i .running).length ≤ _
        rw [List.length_set]
        exact hset.staffed hnil
    · cases hs
      exact ⟨h.queue.setWorker hw rfl, h.threads.setWorker hw fun _ => rfl, h.items.release rfl⟩
  · cases hs

theorem inv_finish {w : ℕ} (h : Inv maxWorkers s) (hs : step maxWorkers s (.finish w) = some s') :
    Inv maxWorkers s' := by
  simp only [step] at hs
  split at hs
  · next i hw =>
    cases hs
    refine ⟨?_, ?_, h.items.finish hw⟩
    · exact (h.queue.setWorker (x := .idle) hw rfl).congr rfl rfl List.length_set
        (fun x hx hx' => ⟨x, hx, hx'⟩) id h.queue.locked
    · have hset := h.threads.setWorker (x := .idle) hw fun _ => rfl
      refine { hset with staffed := fun hnil => ?_ }
      show (s.futures.set i .finished).length ≤ _
      rw [List.length_set]
      exact hset.staffed hnil
  · cases hs

theorem inv_startWorker (hmax : 0 < maxWorkers) (h : Inv maxWorkers s)
    (hs : step maxWorkers s .startWorker = some s') : Inv maxWorkers s' := by
  simp only [step] at hs
  split_ifs at hs with hlock
  cases hs
  have hopen := (h.queue.locked _ hlock).mpr rfl
  have hactive := (h.queue.opened hopen).2
  refine ⟨?_, h.threads.startWorker hopen hactive hmax, ?_⟩
  · unfold State.startWorkerIfNeeded
    simp only
    split_ifs
    · exact h.queue.congr rfl rfl rfl (fun x hx hx' => ⟨x, hx, hx'⟩) id (by simp)
    · refine h.queue.congr rfl rfl rfl (fun x hx hinactive => ?_) id (by simp)
      rcases List.mem_append.mp hx with hx | hx
      · exact ⟨x, hx, hinactive⟩
      · rw [List.mem_singleton.mp hx] at hinactive
        cases hinactive
  · unfold State.startWorkerIfNeeded
    simp only
    split_ifs
    · exact h.items.congr rfl rfl rfl rfl
    · exact h.items.startWorker.congr rfl rfl rfl rfl

/-- **Every step keeps the invariant.** -/
theorem inv_step (hmax : 0 < maxWorkers) (h : Inv maxWorkers s) {a : Act}
    (hs : step maxWorkers s a = some s') : Inv maxWorkers s' := by
  cases a with
  | submit =>
    simp only [step] at hs
    split_ifs at hs with hguard
    cases hs
    refine ⟨h.queue.submit hguard.2, h.threads.submit hguard.1, ?_⟩
    have hfutures : InvItems { s with futures := s.futures ++ [.pending] } := by
      refine h.items.futures fun i hi => List.getElem?_append_left ?_
      rcases hi with hi | hi
      · exact (List.getElem?_eq_some_iff.mp hi).1
      · exact (List.getElem?_eq_some_iff.mp hi).1
    exact hfutures.congr rfl rfl rfl rfl
  | startWorker => exact inv_startWorker hmax h hs
  | shutdown cancelFutures =>
    simp only [step] at hs
    by_cases hlock : s.lock = none
    swap
    · rw [if_neg hlock] at hs
      cases hs
    rw [if_pos hlock] at hs
    cases hs
    refine ⟨?_, h.threads.shutdown hlock cancelFutures, h.items.congr rfl rfl rfl rfl⟩
    refine h.queue.congr rfl rfl rfl (fun x hx hx' => ⟨x, hx, hx'⟩) (by simp) ?_
    intro x hx
    cases cancelFutures with
    | true =>
      cases hx
      simp
    | false =>
      cases hx
      simp
  | drain => exact inv_drain h hs
  | signal => exact inv_signal h hs
  | take w => exact inv_take h hs
  | begin w => exact inv_begin h hs
  | finish w => exact inv_finish h hs
  | leave w =>
    simp only [step] at hs
    split_ifs at hs with hguard
    cases hs
    exact ⟨(h.queue.setWorker (x := .left) hguard.1 rfl).congr rfl rfl rfl
      (fun x hx hx' => ⟨x, hx, hx'⟩) id h.queue.locked, h.threads.leave hguard.1,
      (h.items.release rfl).congr rfl rfl rfl rfl⟩
  | die w =>
    simp only [step] at hs
    split_ifs at hs with hw
    cases hs
    exact ⟨h.queue.setWorker hw rfl, h.threads.setWorker hw (by simp [Worker.active]),
      h.items.release rfl⟩
  | cancel i =>
    cases hs
    exact h.cancel i

theorem inv_run {as : List Act} (h : run maxWorkers as = some s) : Inv maxWorkers s := by
  obtain ⟨s₀, hs₀, hrun⟩ := Option.bind_eq_some_iff.mp h
  unfold create at hs₀
  split_ifs at hs₀ with hmax
  cases hs₀
  have hpos : 0 < maxWorkers := Nat.pos_of_ne_zero hmax
  exact runActs_keeps (fun t a t' ht hstep => inv_step hpos ht hstep) inv_init hrun

end MMRelay.Executor.Daemon
