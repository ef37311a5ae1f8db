import Mathlib.Tactic.Linarith
import Mathlib.Tactic.Ring
import MMRelay.Queue.Timed

/-!
# The rate limit of the message queue

`_process_queue` measures the delay from `_last_send_mono`, which it sets itself once the executor
call is awaited. A send whose coroutine is cancelled meanwhile may still return normally, and
nobody records it: after a restart the next send follows at once.

* `RateLimited`: a send starts `_message_delay` after the last normal return.
* `Lawful`: tasks are created one at a time, and every send that returns normally is recorded by
  its coroutine.
* `Inv`, the invariant: the last normal return is recorded, or the one unfinished coroutine is
  about to; and a coroutine past its measurement has waited long enough.
* **`rateLimited_run`**: in a run of lawful steps every send is rate limited.
* `interruptedSend`: the run in which `stop()` interrupts a send and a restart sends at once.
-/

namespace MMRelay.Timed

open MMRelay.Processor (Message Link shouldSendMessage isConnectionError maxQueueSize)

/-- A send that starts does so `_message_delay` after the last normal return. -/
def RateLimited (s : State) : Act → Prop
  | .jobStart _ => ∀ r ∈ s.lastReturn, r + s.messageDelay ≤ s.now
  | _ => True

instance (s : State) : ∀ a, Decidable (RateLimited s a)
  | .jobStart _ => inferInstanceAs (Decidable (∀ r ∈ s.lastReturn, r + s.messageDelay ≤ s.now))
  | .advance _ | .life _ _ | .enqueue _ | .proc _ _ | .jobReturn _ _ | .jobCancel _ => isTrue trivial

/-- The send has returned a value. -/
def returnedNormally : Status → Bool
  | .returned o => normal o
  | _ => false

/-- The coroutine of task `t` awaits a send with such a status. -/
def awaits (f : Status → Bool) (s : State) (t : ℕ) : Bool :=
  match (s.procs t).pc with
  | .sending j => (s.jobs[j]?).any fun job => f job.status
  | _ => false

/-- The coroutine of task `t` awaits a send that has returned normally. -/
abbrev awaitsNormal (s : State) (t : ℕ) : Bool := awaits returnedNormally s t

/-- The step neither adds a coroutine to an unfinished one nor loses a normal return: `start` gets
through and tasks are created only when none is unfinished, a send returns normally only while its
task is unfinished, no task finishes between that and the recording, and what is recorded is a
positive reading of the clock. -/
def Lawful (s : State) : Act → Prop
  | .life a _ =>
    ((activates s.life a || createsTask s.life a) = true → s.life.live = []) ∧
    ∀ t ∈ Timed.endsTask s.life a, t ∈ s.life.live → awaitsNormal s t = false
  | .jobReturn j o => normal o = true → ∀ job ∈ s.jobs[j]?, job.task ∈ s.life.live
  | .proc t _ => awaitsNormal s t = true → 0 < s.now
  | _ => True

instance (s : State) : ∀ a, Decidable (Lawful s a)
  | .life a _ => inferInstanceAs (Decidable
      (((activates s.life a || createsTask s.life a) = true → s.life.live = []) ∧
        ∀ t ∈ Timed.endsTask s.life a, t ∈ s.life.live → awaitsNormal s t = false))
  | .jobReturn j o => inferInstanceAs (Decidable
      (normal o = true → ∀ job ∈ s.jobs[j]?, job.task ∈ s.life.live))
  | .proc t _ => inferInstanceAs (Decidable (awaitsNormal s t = true → 0 < s.now))
  | .advance _ | .enqueue _ | .jobStart _ | .jobCancel _ => isTrue trivial

/-! ## The steps of a coroutine -/

/-- Places of the loop where nothing has been measured. -/
def calm : Pc → Bool
  | .top => true
  | .firstCheck => true
  | .rateLimit => true
  | .mapping => true
  | _ => false

/-- The send is not over. -/
def isOpen : Status → Bool
  | .queued => true
  | .running => true
  | _ => false

/-- The coroutine awaits no send, or one that has failed. -/
def Idle (s : State) (t : ℕ) : Prop :=
  awaits isOpen s t = false ∧ awaits returnedNormally s t = false

/-- What a step of the coroutine of task `t` can do: the place it leads to, `_last_send_mono` and
the sends after it. -/
inductive Move (s : State) (t : ℕ) : Pc → ℚ → List Job → Prop
  | calm {pc : Pc} (hpc : calm pc = true) (hi : Idle s t) :
      Move s t pc s.lastSendMono s.jobs
  | sleep (hpc : (s.procs t).pc = .rateLimit) :
      Move s t (.sleeping (s.lastSendMono + s.messageDelay)) s.lastSendMono s.jobs
  | measured (hpc : (s.procs t).pc = .rateLimit)
      (hd : 0 < s.lastSendMono → s.lastSendMono + s.messageDelay ≤ s.now) :
      Move s t .finalCheck s.lastSendMono s.jobs
  | woken {wake : ℚ} (hpc : (s.procs t).pc = .sleeping wake) (hw : wake ≤ s.now) :
      Move s t .recheck s.lastSendMono s.jobs
  | rechecked (hpc : (s.procs t).pc = .recheck) : Move s t .finalCheck s.lastSendMono s.jobs
  | submitted (hpc : (s.procs t).pc = .finalCheck) :
      Move s t (.sending s.jobs.length) s.lastSendMono (s.jobs ++ [⟨t, .queued⟩])
  | recorded {pc : Pc} (hpc : calm pc = true) (hn : awaitsNormal s t = true) :
      Move s t pc s.now s.jobs

/-- A state after a step of the coroutine of task `t`. -/
def moved (s : State) (t : ℕ) (p : Local) (m : ℚ) (jobs : List Job) (queue : List Message)
    (dropped : ℕ) : State :=
  { s with queue := queue, dropped := dropped, lastSendMono := m, jobs := jobs,
           procs := Function.update s.procs t p }

/-- The step led to `s'` and was one of those of `Move`. -/
def Moves (s : State) (t : ℕ) (s' : State) : Prop :=
  ∃ p m jobs queue dropped, s' = moved s t p m jobs queue dropped ∧ Move s t p.pc m jobs

variable {s s' : State} {t : ℕ}

theorem awaits_eq_false (f : Status → Bool) {pc : Pc} (hpc : (s.procs t).pc = pc)
    (hne : ∀ j, pc ≠ .sending j) : awaits f s t = false := by
  unfold awaits
  rw [hpc]
  cases pc with
  | sending j => exact absurd rfl (hne j)
  | top | firstCheck | rateLimit | sleeping _ | recheck | finalCheck | mapping => rfl

theorem awaits_sending (f : Status → Bool) {j : ℕ} {job : Job} (hpc : (s.procs t).pc = .sending j)
    (hj : s.jobs[j]? = some job) : awaits f s t = f job.status := by
  simp only [awaits, hpc, hj, Option.any_some]

theorem idle_of_pc {pc : Pc} (hpc : (s.procs t).pc = pc) (hne : ∀ j, pc ≠ .sending j) : Idle s t :=
  ⟨awaits_eq_false isOpen hpc hne, awaits_eq_false returnedNormally hpc hne⟩

theorem moves_setLocal {p : Local} (h : Move s t p.pc s.lastSendMono s.jobs) :
    Moves s t (setLocal s t p) :=
  ⟨p, s.lastSendMono, s.jobs, s.queue, s.dropped, rfl, h⟩

theorem moves_release (hi : Idle s t) : Moves s t (release s t) :=
  moves_setLocal (.calm rfl hi)

theorem moves_requeue (m : Message) (hi : Idle s t) :
    Moves s t (release (requeueMessage s m) t) := by
  unfold requeueMessage
  split_ifs
  · exact ⟨fresh, _, _, s.queue, s.dropped + 1, rfl, .calm rfl hi⟩
  · exact ⟨fresh, _, _, m :: s.queue, s.dropped, rfl, .calm rfl hi⟩

theorem moves_submit (m : Message) (hpc : (s.procs t).pc = .finalCheck) :
    Moves s t (submit s t m) := by
  have hi : Idle s t := idle_of_pc hpc (by simp)
  unfold submit
  cases s.life.executor with
  | none => exact moves_release hi
  | some e =>
    simp only
    split_ifs
    · exact moves_release hi
    · exact ⟨⟨.sending s.jobs.length, some m⟩, _, _, _, _, rfl, .submitted hpc⟩

theorem moves_resume {j : ℕ} {job : Job} {m : Message} (hpc : (s.procs t).pc = .sending j)
    (hj : s.jobs[j]? = some job) (h : resume s t m job.status = some s') : Moves s t s' := by
  have ha : ∀ f, awaits f s t = f job.status := fun f => awaits_sending f hpc hj
  cases hs : job.status with
  | queued | running | cancelled => simp only [hs, resume, reduceCtorEq] at h
  | returned o =>
    rw [hs] at h ha
    cases o with
    | value hasId =>
      cases h
      refine ⟨_, s.now, s.jobs, s.queue, s.dropped, rfl, .recorded ?_ (ha _)⟩
      split_ifs <;> rfl
    | none =>
      cases h
      exact ⟨fresh, s.now, s.jobs, s.queue, s.dropped, rfl, .recorded rfl (ha _)⟩
    | error e =>
      simp only [resume] at h
      split_ifs at h
      · cases h
        exact moves_requeue m ⟨ha _, ha _⟩
      · cases h
        exact moves_release ⟨ha _, ha _⟩

theorem moves_afterCheck {m : Message} {go : State} (hi : Idle s t)
    (hgo : Moves s t go) (answer : Option Bool) : Moves s t (afterCheck s t m go answer) := by
  cases answer with
  | none => exact moves_setLocal (.calm rfl hi)
  | some b =>
    cases b with
    | true => exact hgo
    | false => exact moves_requeue m hi

/-! ## The step at each place -/

section Places

variable {e : Event}

theorem current_of_procStep (hpc : (s.procs t).pc ≠ .top) (h : procStep s t e = some s') :
    ∃ m, (s.procs t).current = some m := by
  cases hc : (s.procs t).current with
  | some m => exact ⟨m, rfl⟩
  | none =>
    unfold procStep at h
    rw [hc] at h
    split at h <;> simp_all

theorem procStep_top (hpc : (s.procs t).pc = .top) (h : procStep s t e = some s') :
    s' = s ∨ ∃ m queue, s' = setLocal { s with queue := queue } t ⟨.firstCheck, some m⟩ := by
  unfold procStep at h
  cases hc : (s.procs t).current <;> cases e <;> simp only [hpc, hc, reduceCtorEq] at h
  · split_ifs at h
    split at h
    · cases h
      exact .inl rfl
    · cases h
      exact .inr ⟨_, _, rfl⟩
  · split_ifs at h
    cases h
    exact .inr ⟨_, s.queue, rfl⟩

theorem procStep_firstCheck (hpc : (s.procs t).pc = .firstCheck) (h : procStep s t e = some s') :
    ∃ m pc, calm pc = true ∧ s' = setLocal s t ⟨pc, some m⟩ := by
  obtain ⟨m, hc⟩ := current_of_procStep (by simp [hpc]) h
  unfold procStep at h
  cases e <;> simp only [hpc, hc, reduceCtorEq] at h
  cases h
  refine ⟨m, _, ?_, rfl⟩
  split_ifs <;> rfl

theorem procStep_rateLimit (hpc : (s.procs t).pc = .rateLimit) (h : procStep s t e = some s') :
    ∃ m, s' = setLocal s t ⟨.sleeping (s.lastSendMono + s.messageDelay), some m⟩ ∨
      (0 < s.lastSendMono → s.lastSendMono + s.messageDelay ≤ s.now) ∧
        s' = setLocal s t ⟨.finalCheck, some m⟩ := by
  obtain ⟨m, hc⟩ := current_of_procStep (by simp [hpc]) h
  unfold procStep at h
  cases e <;> simp only [hpc, hc, reduceCtorEq] at h
  split_ifs at h with hd
  · cases h
    have hw : s.now + (s.messageDelay - (s.now - s.lastSendMono)) =
        s.lastSendMono + s.messageDelay := by ring
    rw [hw]
    exact ⟨m, .inl rfl⟩
  · cases h
    refine ⟨m, .inr ⟨fun hpos => ?_, rfl⟩⟩
    have hle : s.messageDelay ≤ s.now - s.lastSendMono := not_lt.mp fun hlt => hd ⟨hpos, hlt⟩
    linarith

theorem procStep_sleeping {wake : ℚ} (hpc : (s.procs t).pc = .sleeping wake)
    (h : procStep s t e = some s') :
    wake ≤ s.now ∧ ∃ m, s' = setLocal s t ⟨.recheck, some m⟩ := by
  obtain ⟨m, hc⟩ := current_of_procStep (by simp [hpc]) h
  unfold procStep at h
  cases e <;> simp only [hpc, hc, reduceCtorEq] at h
  split_ifs at h with hw
  cases h
  exact ⟨hw, m, rfl⟩

theorem procStep_recheck (hpc : (s.procs t).pc = .recheck) (h : procStep s t e = some s') :
    ∃ m answer, s' = afterCheck s t m (setLocal s t ⟨.finalCheck, some m⟩) answer := by
  obtain ⟨m, hc⟩ := current_of_procStep (by simp [hpc]) h
  unfold procStep at h
  cases e <;> simp only [hpc, hc, reduceCtorEq] at h
  cases h
  exact ⟨m, _, rfl⟩

theorem procStep_finalCheck (hpc : (s.procs t).pc = .finalCheck) (h : procStep s t e = some s') :
    ∃ m answer, s' = afterCheck s t m (submit s t m) answer := by
  obtain ⟨m, hc⟩ := current_of_procStep (by simp [hpc]) h
  unfold procStep at h
  cases e <;> simp only [hpc, hc, reduceCtorEq] at h
  cases h
  exact ⟨m, _, rfl⟩

theorem procStep_sending {j : ℕ} (hpc : (s.procs t).pc = .sending j)
    (h : procStep s t e = some s') :
    ∃ m job, s.jobs[j]? = some job ∧ resume s t m job.status = some s' := by
  obtain ⟨m, hc⟩ := current_of_procStep (by simp [hpc]) h
  unfold procStep at h
  cases e <;> simp only [hpc, hc, reduceCtorEq, Option.bind_eq_some_iff] at h
  obtain ⟨job, hj, h⟩ := h
  exact ⟨m, job, hj, h⟩

theorem procStep_mapping (hpc : (s.procs t).pc = .mapping) (h : procStep s t e = some s') :
    s' = release s t := by
  obtain ⟨m, hc⟩ := current_of_procStep (by simp [hpc]) h
  unfold procStep at h
  cases e <;> simp only [hpc, hc, reduceCtorEq] at h
  cases h
  rfl

end Places

/-- **One step of a coroutine** is one of those of `Move`. -/
theorem procStep_moves {e : Event} (h : procStep s t e = some s') : Moves s t s' := by
  cases hpc : (s.procs t).pc with
  | top =>
    have hi : Idle s t := idle_of_pc hpc (by simp)
    obtain rfl | ⟨m, queue, rfl⟩ := procStep_top hpc h
    · refine ⟨s'.procs t, _, _, s'.queue, s'.dropped, ?_, .calm (by rw [hpc]; rfl) hi⟩
      rw [moved, Function.update_eq_self]
    · exact ⟨⟨.firstCheck, some m⟩, _, _, queue, s.dropped, rfl, .calm rfl hi⟩
  | firstCheck =>
    obtain ⟨m, pc, hcalm, rfl⟩ := procStep_firstCheck hpc h
    exact moves_setLocal (.calm hcalm (idle_of_pc hpc (by simp)))
  | rateLimit =>
    obtain ⟨m, rfl | ⟨hd, rfl⟩⟩ := procStep_rateLimit hpc h
    · exact moves_setLocal (.sleep hpc)
    · exact moves_setLocal (.measured hpc hd)
  | sleeping wake =>
    obtain ⟨hw, m, rfl⟩ := procStep_sleeping hpc h
    exact moves_setLocal (.woken hpc hw)
  | recheck =>
    obtain ⟨m, answer, rfl⟩ := procStep_recheck hpc h
    exact moves_afterCheck (idle_of_pc hpc (by simp)) (moves_setLocal (.rechecked hpc)) answer
  | finalCheck =>
    obtain ⟨m, answer, rfl⟩ := procStep_finalCheck hpc h
    exact moves_afterCheck (idle_of_pc hpc (by simp)) (moves_submit m hpc) answer
  | sending j =>
    obtain ⟨m, job, hj, hresume⟩ := procStep_sending hpc h
    exact moves_resume hpc hj hresume
  | mapping =>
    rw [procStep_mapping hpc h]
    exact moves_release (idle_of_pc hpc (by simp))

/-! ## The invariant -/

/-- The delay since the recorded send is over. -/
def Elapsed (s : State) : Prop := 0 < s.lastSendMono → s.lastSendMono + s.messageDelay ≤ s.now

/-- A coroutine past its measurement has waited, or waits, long enough. -/
def Ready (s : State) : Pc → Prop
  | .sleeping wake => 0 < s.lastSendMono → s.lastSendMono + s.messageDelay ≤ wake
  | .recheck => Elapsed s
  | .finalCheck => Elapsed s
  | .sending j => ∀ job, s.jobs[j]? = some job → job.status = .queued → Elapsed s
  | _ => True

/-- The last normal return is recorded. -/
def Recorded (s : State) : Prop :=
  ∀ r ∈ s.lastReturn, 0 < s.lastSendMono ∧ r ≤ s.lastSendMono

/-- The invariant of lawful runs. -/
structure Inv (s : State) : Prop where
  one : ∀ t ∈ s.life.live, s.life.live = [t]
  live_lt : ∀ t ∈ s.life.live, t < s.life.nextTask
  unborn : ∀ t, s.life.nextTask ≤ t → s.procs t = fresh
  job_lt : ∀ (j : ℕ) (job : Job), s.jobs[j]? = some job → job.task < s.life.nextTask
  queued_live : ∀ (j : ℕ) (job : Job), s.jobs[j]? = some job → job.status = .queued → job.task ∈ s.life.live
  awaited : ∀ (j : ℕ) (job : Job), s.jobs[j]? = some job → isOpen job.status = true →
    job.task ∈ s.life.live → (s.procs job.task).pc = .sending j
  return_le : ∀ r ∈ s.lastReturn, r ≤ s.now
  covered : (∃ t ∈ s.life.live, awaitsNormal s t = true) ∨ Recorded s
  ready : ∀ t ∈ s.life.live, Ready s (s.procs t).pc

theorem inv_init (clock : ℚ) : Inv (init clock) := by
  constructor <;> simp [init, Queue.init, Recorded]

theorem Inv.rateLimited (h : Inv s) {j : ℕ} {job : Job} (hj : s.jobs[j]? = some job)
    (hq : job.status = .queued) : ∀ r ∈ s.lastReturn, r + s.messageDelay ≤ s.now := by
  have hl : job.task ∈ s.life.live := h.queued_live j job hj hq
  have hpc : (s.procs job.task).pc = .sending j := h.awaited j job hj (by rw [hq]; rfl) hl
  have he : Elapsed s := by
    have hr : Ready s (s.procs job.task).pc := h.ready job.task hl
    rw [hpc] at hr
    exact hr job hj hq
  have hrec : Recorded s := by
    rcases h.covered with ⟨t, ht, ha⟩ | hrec
    · -- the one coroutine awaits this send, which is still queued
      have htj : t = job.task := by
        have h1 := h.one t ht
        rw [h1] at hl
        exact (List.mem_singleton.mp hl).symm
      rw [htj, awaitsNormal, awaits_sending _ hpc hj, hq] at ha
      cases ha
    · exact hrec
  intro r hr
  obtain ⟨hpos, hle⟩ := hrec r hr
  have := he hpos
  linarith

/-- No send becomes queued. -/
def NoNewQueued (s s' : State) : Prop :=
  ∀ (j : ℕ) (job' : Job), s'.jobs[j]? = some job' → job'.status = .queued →
    ∃ job, s.jobs[j]? = some job ∧ job.status = .queued

theorem Ready.mono {pc : Pc} (h : Ready s pc) (hm : s'.lastSendMono = s.lastSendMono)
    (hd : s'.messageDelay = s.messageDelay) (hn : s.now ≤ s'.now) (hj : NoNewQueued s s') :
    Ready s' pc := by
  have he : Elapsed s → Elapsed s' := by
    intro he hpos
    rw [hm] at hpos
    rw [hm, hd]
    exact (he hpos).trans hn
  cases pc with
  | sleeping wake =>
    intro hpos
    rw [hm] at hpos
    rw [hm, hd]
    exact h hpos
  | recheck => exact he h
  | finalCheck => exact he h
  | sending j =>
    intro job' hj' hq
    obtain ⟨job, hjob, hq'⟩ := hj j job' hj' hq
    exact he (h job hjob hq')
  | top | firstCheck | rateLimit | mapping => trivial

/-! ## The clock and `enqueue` -/

theorem Inv.advance (h : Inv s) {now : ℚ} (hle : s.now ≤ now) : Inv { s with now := now } where
  one := h.one
  live_lt := h.live_lt
  unborn := h.unborn
  job_lt := h.job_lt
  queued_live := h.queued_live
  awaited := h.awaited
  return_le r hr := (h.return_le r hr).trans hle
  covered := h.covered
  ready t ht := (h.ready t ht).mono rfl rfl hle fun _ job hj hq => ⟨job, hj, hq⟩

theorem Inv.enqueuePass (h : Inv s) (m : Message) : Inv (enqueuePass s m) := by
  obtain ⟨hl, hn⟩ := enqueueAdmission_live s.life
  have key : ∀ queue, Inv { s with life := (Queue.enqueueAdmission s.life).2, queue := queue } := by
    intro queue
    constructor <;> simp only [hl, hn]
    · exact h.one
    · exact h.live_lt
    · exact h.unborn
    · exact h.job_lt
    · exact h.queued_live
    · exact h.awaited
    · exact h.return_le
    · exact h.covered
    · exact fun t ht => (h.ready t ht).mono rfl rfl le_rfl fun _ job hj hq => ⟨job, hj, hq⟩
  unfold Timed.enqueuePass
  simp only
  split_ifs
  · exact key s.queue
  · exact key (s.queue ++ [m])

/-! ## The lifecycle -/

theorem cancelQueued_some {live : List ℕ} {jobs : List Job} {j : ℕ} {job' : Job}
    (h : (cancelQueued live jobs)[j]? = some job') :
    ∃ job, jobs[j]? = some job ∧ job'.task = job.task ∧
      (job'.status = job.status ∧ (job.status = .queued → job.task ∈ live) ∨
        job'.status = .cancelled) := by
  rw [cancelQueued, List.getElem?_map, Option.map_eq_some_iff] at h
  obtain ⟨job, hj, rfl⟩ := h
  refine ⟨job, hj, ?_⟩
  split_ifs with hc
  · exact ⟨rfl, .inr rfl⟩
  · exact ⟨rfl, .inl ⟨rfl, fun hq => by_contra fun hm => hc ⟨hq, hm⟩⟩⟩

theorem awaitsNormal_lifeStep (s : State) (a : Queue.Act) (d : ℚ) (l : Queue.State) (t : ℕ) :
    awaitsNormal (lifeStep s a d l) t = awaitsNormal s t := by
  cases hpc : (s.procs t).pc with
  | sending j =>
    have hg : (lifeStep s a d l).jobs[j]? = (cancelQueued l.live s.jobs)[j]? := rfl
    cases hj : s.jobs[j]? with
    | none =>
      simp only [awaits, lifeStep, hpc, cancelQueued, List.getElem?_map, hj, Option.map_none]
    | some job =>
      simp only [awaits, lifeStep, hpc, cancelQueued, List.getElem?_map, hj, Option.map_some,
        Option.any_some]
      split_ifs with hc
      · rw [hc.1]
        rfl
      · rfl
  | top | firstCheck | rateLimit | sleeping _ | recheck | finalCheck | mapping =>
    have h1 := awaits_eq_false (s := s) returnedNormally hpc (by simp)
    have h2 := awaits_eq_false (s := lifeStep s a d l) returnedNormally hpc (by simp)
    rw [awaitsNormal, awaitsNormal, h1, h2]

theorem mem_of_mem_without {live : List ℕ} {t : ℕ} {e : Option ℕ} (h : t ∈ without live e) :
    t ∈ live := by
  cases e with
  | none => exact h
  | some u => exact List.mem_of_mem_erase h

theorem without_singleton {t : ℕ} {e : Option ℕ} (h : t ∈ without [t] e) : without [t] e = [t] := by
  cases e with
  | none => rfl
  | some u =>
    have hne : u ≠ t := by
      rintro rfl
      simp [without] at h
    rw [without, List.erase_of_not_mem (by simpa using hne)]

theorem mem_without_of_ne {live : List ℕ} {t : ℕ} {e : Option ℕ} (h : t ∈ live)
    (he : e ≠ some t) : t ∈ without live e := by
  cases e with
  | none => exact h
  | some u => exact (List.mem_erase_of_ne fun hu => he (by rw [hu])).mpr h

variable {a : Queue.Act} {d : ℚ} {l : Queue.State}

theorem Inv.createTask (h : Inv s) (h0 : s.life.live = [])
    (hl : l.live = [s.life.nextTask]) (hn : l.nextTask = s.life.nextTask + 1) :
    Inv (lifeStep s a d l) where
  one t ht := by
    change t ∈ l.live at ht
    rw [hl, List.mem_singleton] at ht
    exact hl.trans (by rw [ht])
  live_lt t ht := by
    change t ∈ l.live at ht
    rw [hl, List.mem_singleton] at ht
    show t < l.nextTask
    omega
  unborn t ht := by
    change l.nextTask ≤ t at ht
    exact h.unborn t (by omega)
  job_lt j job' hj := by
    obtain ⟨job, hjob, ht, -⟩ := cancelQueued_some hj
    have := h.job_lt j job hjob
    show job'.task < l.nextTask
    omega
  queued_live j job' hj hq := by
    obtain ⟨job, -, ht, ⟨hs, hq'⟩ | hc⟩ := cancelQueued_some hj
    · rw [ht]
      exact hq' (hs ▸ hq)
    · rw [hc] at hq
      cases hq
  awaited j job' hj _ hm := by
    -- the sends are all of older tasks
    obtain ⟨job, hjob, ht, -⟩ := cancelQueued_some hj
    change job'.task ∈ l.live at hm
    rw [hl, List.mem_singleton] at hm
    have := h.job_lt j job hjob
    omega
  return_le := h.return_le
  covered := by
    right
    rcases h.covered with ⟨t, ht, -⟩ | hrec
    · rw [h0] at ht
      cases ht
    · exact hrec
  ready t ht := by
    change t ∈ l.live at ht
    rw [hl, List.mem_singleton] at ht
    show Ready _ (s.procs t).pc
    rw [h.unborn t ht.ge]
    trivial

theorem Inv.withoutTask (h : Inv s) (hlaw : Lawful s (.life a d))
    (hl : l.live = without s.life.live (Timed.endsTask s.life a))
    (hn : l.nextTask = s.life.nextTask) : Inv (lifeStep s a d l) where
  one t ht := by
    change t ∈ l.live at ht
    show l.live = [t]
    have h1 : s.life.live = [t] := h.one t (mem_of_mem_without (hl ▸ ht))
    rw [hl, h1] at ht ⊢
    exact without_singleton ht
  live_lt t ht := by
    change t ∈ l.live at ht
    rw [hl] at ht
    exact hn.symm ▸ h.live_lt t (mem_of_mem_without ht)
  unborn t ht := h.unborn t (hn ▸ ht)
  job_lt j job' hj := by
    obtain ⟨job, hjob, ht, -⟩ := cancelQueued_some hj
    rw [ht]
    exact hn.symm ▸ h.job_lt j job hjob
  queued_live j job' hj hq := by
    obtain ⟨job, -, ht, ⟨hs, hq'⟩ | hc⟩ := cancelQueued_some hj
    · rw [ht]
      exact hq' (hs ▸ hq)
    · rw [hc] at hq
      cases hq
  awaited j job' hj ho hm := by
    obtain ⟨job, hjob, ht, ⟨hs, -⟩ | hc⟩ := cancelQueued_some hj
    · change job'.task ∈ l.live at hm
      rw [hl, ht] at hm
      rw [ht]
      exact h.awaited j job hjob (hs ▸ ho) (mem_of_mem_without hm)
    · rw [hc] at ho
      cases ho
  return_le := h.return_le
  covered := by
    rcases h.covered with ⟨t, ht, ha⟩ | hrec
    · left
      refine ⟨t, ?_, (awaitsNormal_lifeStep s a d l t).trans ha⟩
      show t ∈ l.live
      rw [hl]
      refine mem_without_of_ne ht fun he => ?_
      have := hlaw.2 t he ht
      rw [ha] at this
      cases this
    · exact .inr hrec
  ready t ht := by
    change t ∈ l.live at ht
    rw [hl] at ht
    have hlive : t ∈ s.life.live := mem_of_mem_without ht
    have hact : activates s.life a = false := by
      rw [← Bool.not_eq_true]
      intro hact
      rw [hlaw.1 (by rw [hact]; rfl)] at hlive
      cases hlive
    refine (h.ready t hlive).mono rfl ?_ le_rfl fun j job' hj hq => ?_
    · show (if activates s.life a then d else s.messageDelay) = s.messageDelay
      rw [hact]
      rfl
    · obtain ⟨job, hjob, -, ⟨hs, -⟩ | hc⟩ := cancelQueued_some hj
      · exact ⟨job, hjob, hs ▸ hq⟩
      · rw [hc] at hq
        cases hq

theorem Inv.life (h : Inv s) (hlaw : Lawful s (.life a d)) (hstep : Queue.step s.life a = some l) :
    Inv (lifeStep s a d l) := by
  rcases step_live hstep with ⟨hc, hl, hn⟩ | ⟨-, hl, hn⟩
  · have h0 : s.life.live = [] := hlaw.1 (by rw [hc, Bool.or_true])
    rw [h0] at hl
    exact h.createTask h0 hl hn
  · exact h.withoutTask hlaw hl hn

/-! ## Coroutines -/

theorem Move.not_open {pc : Pc} {m : ℚ} {jobs : List Job} (h : Move s t pc m jobs) :
    awaits isOpen s t = false := by
  cases h with
  | calm hpc hi => exact hi.1
  | sleep hpc => exact awaits_eq_false isOpen hpc (by simp)
  | measured hpc hd => exact awaits_eq_false isOpen hpc (by simp)
  | woken hpc hw => exact awaits_eq_false isOpen hpc (by simp)
  | rechecked hpc => exact awaits_eq_false isOpen hpc (by simp)
  | submitted hpc => exact awaits_eq_false isOpen hpc (by simp)
  | recorded hpc hn =>
    unfold awaitsNormal awaits at hn
    unfold awaits
    cases hs : (s.procs t).pc with
    | sending j =>
      simp only [hs, Option.any_eq_true] at hn
      obtain ⟨job, hj, hr⟩ := hn
      simp only [hj, Option.any_some]
      cases hst : job.status with
      | returned o => rfl
      | queued | running | cancelled =>
        rw [hst] at hr
        cases hr
    | top | firstCheck | rateLimit | sleeping _ | recheck | finalCheck | mapping => rfl

theorem Move.not_normal {pc : Pc} {m : ℚ} {jobs : List Job} (h : Move s t pc m jobs) :
    awaitsNormal s t = false ∧ m = s.lastSendMono ∨ awaitsNormal s t = true ∧ m = s.now := by
  cases h with
  | calm hpc hi => exact .inl ⟨hi.2, rfl⟩
  | sleep hpc => exact .inl ⟨awaits_eq_false _ hpc (by simp), rfl⟩
  | measured hpc hd => exact .inl ⟨awaits_eq_false _ hpc (by simp), rfl⟩
  | woken hpc hw => exact .inl ⟨awaits_eq_false _ hpc (by simp), rfl⟩
  | rechecked hpc => exact .inl ⟨awaits_eq_false _ hpc (by simp), rfl⟩
  | submitted hpc => exact .inl ⟨awaits_eq_false _ hpc (by simp), rfl⟩
  | recorded hpc hn => exact .inr ⟨hn, rfl⟩

section Move

variable (h : Inv s) (ht : t ∈ s.life.live)
include h ht

theorem Inv.only {u : ℕ} (hu : u ∈ s.life.live) : u = t := by
  rw [h.one t ht] at hu
  exact List.mem_singleton.mp hu

theorem Inv.no_open (ho : awaits isOpen s t = false) {j : ℕ} {job : Job}
    (hj : s.jobs[j]? = some job) (hl : job.task ∈ s.life.live) : isOpen job.status = false := by
  rw [← Bool.not_eq_true]
  intro hopen
  have hpc := h.awaited j job hj hopen hl
  rw [h.only ht hl] at hpc
  rw [awaits_sending isOpen hpc hj, hopen] at ho
  cases ho

theorem Inv.unborn_update (p : Local) (u : ℕ) (hu : s.life.nextTask ≤ u) :
    Function.update s.procs t p u = fresh := by
  have hlt := h.live_lt t ht
  rw [Function.update_of_ne (by omega)]
  exact h.unborn u hu

theorem Inv.recorded_move (hlaw : awaitsNormal s t = true → 0 < s.now) {pc : Pc} {m : ℚ}
    {jobs : List Job} (hmove : Move s t pc m jobs) : ∀ r ∈ s.lastReturn, 0 < m ∧ r ≤ m := by
  rcases hmove.not_normal with ⟨hn, rfl⟩ | ⟨hn, rfl⟩
  · rcases h.covered with ⟨u, hu, ha⟩ | hrec
    · rw [h.only ht hu, hn] at ha
      cases ha
    · exact hrec
  · exact fun r hr => ⟨hlaw hn, h.return_le r hr⟩

theorem Inv.moved_same {p : Local} {m : ℚ} (ho : awaits isOpen s t = false)
    (hrec : ∀ r ∈ s.lastReturn, 0 < m ∧ r ≤ m) (queue : List Message) (dropped : ℕ)
    (hready : Ready (moved s t p m s.jobs queue dropped) p.pc) :
    Inv (moved s t p m s.jobs queue dropped) where
  one := h.one
  live_lt := h.live_lt
  unborn := h.unborn_update ht p
  job_lt := h.job_lt
  queued_live := h.queued_live
  awaited j job hj hopen hl := by
    have := h.no_open ht ho hj hl
    rw [hopen] at this
    cases this
  return_le := h.return_le
  covered := .inr hrec
  ready u hu := by
    obtain rfl := h.only ht hu
    show Ready _ (Function.update s.procs u p u).pc
    rw [Function.update_self]
    exact hready

theorem Inv.moved_submit {cur : Option Message} (hpc : (s.procs t).pc = .finalCheck)
    (hrec : Recorded s) (queue : List Message) (dropped : ℕ) :
    Inv (moved s t ⟨.sending s.jobs.length, cur⟩ s.lastSendMono (s.jobs ++ [⟨t, .queued⟩]) queue
      dropped) := by
  have append : ∀ {j : ℕ} {job : Job}, (s.jobs ++ [⟨t, .queued⟩])[j]? = some job →
      s.jobs[j]? = some job ∨ j = s.jobs.length ∧ job = ⟨t, .queued⟩ := by
    intro j job hj
    rw [List.getElem?_append] at hj
    split_ifs at hj with hlt
    · exact .inl hj
    · rw [List.getElem?_singleton] at hj
      split_ifs at hj with h0
      cases hj
      exact .inr ⟨by omega, rfl⟩
  have ho : awaits isOpen s t = false := awaits_eq_false isOpen hpc (by simp)
  have he : Elapsed s := by
    have hr := h.ready t ht
    rw [hpc] at hr
    exact hr
  refine ⟨h.one, h.live_lt, h.unborn_update ht _, ?_, ?_, ?_, h.return_le, .inr hrec, ?_⟩
  · intro j job hj
    rcases append hj with hj | ⟨-, rfl⟩
    · exact h.job_lt j job hj
    · exact h.live_lt t ht
  · intro j job hj hq
    rcases append hj with hj | ⟨-, rfl⟩
    · exact h.queued_live j job hj hq
    · exact ht
  · intro j job hj hopen hl
    rcases append hj with hj | ⟨rfl, rfl⟩
    · have := h.no_open ht ho hj hl
      rw [hopen] at this
      cases this
    · show (Function.update s.procs t _ t).pc = _
      rw [Function.update_self]
  · intro u hu
    obtain rfl := h.only ht hu
    show Ready _ (Function.update s.procs u _ u).pc
    rw [Function.update_self]
    exact fun _ _ _ => he

end Move

theorem ready_of_calm {pc : Pc} (h : calm pc = true) (s : State) : Ready s pc := by
  cases pc with
  | top | firstCheck | rateLimit | mapping => trivial
  | sleeping _ | recheck | finalCheck | sending _ => cases h

theorem Inv.moves (h : Inv s) (ht : t ∈ s.life.live)
    (hlaw : awaitsNormal s t = true → 0 < s.now) (hm : Moves s t s') : Inv s' := by
  obtain ⟨⟨pc, cur⟩, m, jobs, queue, dropped, rfl, hmove⟩ := hm
  have ho := hmove.not_open
  have hrec := h.recorded_move ht hlaw hmove
  have hr := h.ready t ht
  cases hmove with
  | calm hpc hi => exact h.moved_same ht ho hrec queue dropped (ready_of_calm hpc _)
  | sleep hpc => exact h.moved_same ht ho hrec queue dropped fun _ => le_rfl
  | measured hpc hd => exact h.moved_same ht ho hrec queue dropped hd
  | woken hpc hw =>
    rw [hpc] at hr
    exact h.moved_same ht ho hrec queue dropped fun hpos => (hr hpos).trans hw
  | rechecked hpc =>
    rw [hpc] at hr
    exact h.moved_same ht ho hrec queue dropped hr
  | submitted hpc => exact h.moved_submit ht hpc hrec queue dropped
  | recorded hpc hn => exact h.moved_same ht ho hrec queue dropped (ready_of_calm hpc _)

/-! ## Sends -/

theorem setStatus_some {j i : ℕ} {job job' : Job} {status : Status}
    (hj : s.jobs[j]? = some job) (h : (setStatus s j job status).jobs[i]? = some job') :
    i = j ∧ job' = { job with status := status } ∨ i ≠ j ∧ s.jobs[i]? = some job' := by
  have hlt : j < s.jobs.length := (List.getElem?_eq_some_iff.mp hj).1
  change (s.jobs.set j _)[i]? = some job' at h
  by_cases hij : i = j
  · subst hij
    rw [List.getElem?_set_self hlt] at h
    cases h
    exact .inl ⟨rfl, rfl⟩
  · rw [List.getElem?_set_ne (Ne.symm hij)] at h
    exact .inr ⟨hij, h⟩

theorem Inv.settle (h : Inv s) {j : ℕ} {job : Job} {status : Status} {r : Option ℚ}
    (hj : s.jobs[j]? = some job) (hq : status ≠ .queued) (ho : isOpen job.status = true)
    (hr : ∀ x ∈ r, x ≤ s.now)
    (hc : (∃ t ∈ s.life.live, awaitsNormal (setStatus s j job status) t = true) ∨
      ∀ x ∈ r, 0 < s.lastSendMono ∧ x ≤ s.lastSendMono) :
    Inv { setStatus s j job status with lastReturn := r } where
  one := h.one
  live_lt := h.live_lt
  unborn := h.unborn
  job_lt i job' hi := by
    rcases setStatus_some hj hi with ⟨rfl, rfl⟩ | ⟨-, hi⟩
    · exact h.job_lt i job hj
    · exact h.job_lt i job' hi
  queued_live i job' hi hq' := by
    rcases setStatus_some hj hi with ⟨rfl, rfl⟩ | ⟨-, hi⟩
    · exact absurd hq' hq
    · exact h.queued_live i job' hi hq'
  awaited i job' hi ho' hl := by
    rcases setStatus_some hj hi with ⟨rfl, rfl⟩ | ⟨-, hi⟩
    · exact h.awaited i job hj ho hl
    · exact h.awaited i job' hi ho' hl
  return_le := hr
  covered := hc
  ready t ht := by
    refine (h.ready t ht).mono rfl rfl le_rfl fun i job' hi hq' => ?_
    rcases setStatus_some hj hi with ⟨rfl, rfl⟩ | ⟨-, hi⟩
    · exact absurd hq' hq
    · exact ⟨job', hi, hq'⟩

theorem awaitsNormal_setStatus {j : ℕ} {job : Job} {status : Status}
    (hj : s.jobs[j]? = some job) (ho : isOpen job.status = true) (t : ℕ)
    (ha : awaitsNormal s t = true) :
    awaitsNormal (setStatus s j job status) t = true := by
  have hjn : returnedNormally job.status = false := by
    cases hs : job.status with
    | queued | running | cancelled => rfl
    | returned o =>
      rw [hs] at ho
      cases ho
  cases hpc : (s.procs t).pc with
  | sending i =>
    cases hi : s.jobs[i]? with
    | none =>
      simp only [awaits, hpc, hi, Option.any_none, Bool.false_eq_true] at ha
    | some job' =>
      rw [awaitsNormal, awaits_sending _ hpc hi] at ha
      have hne : j ≠ i := by
        rintro rfl
        rw [hj] at hi
        cases hi
        rw [ha] at hjn
        cases hjn
      have hi' : (setStatus s j job status).jobs[i]? = some job' :=
        (List.getElem?_set_ne hne).trans hi
      rw [awaitsNormal, awaits_sending (s := setStatus s j job status) _ hpc hi', ha]
  | top | firstCheck | rateLimit | sleeping _ | recheck | finalCheck | mapping =>
    rw [awaitsNormal, awaits_eq_false _ hpc (by simp)] at ha
    cases ha

theorem Inv.failed (h : Inv s) {j : ℕ} {job : Job} {status : Status}
    (hj : s.jobs[j]? = some job) (hq : status ≠ .queued) (ho : isOpen job.status = true) :
    Inv (setStatus s j job status) := by
  refine h.settle hj hq ho h.return_le ?_
  rcases h.covered with ⟨t, ht, ha⟩ | hrec
  · exact .inl ⟨t, ht, awaitsNormal_setStatus hj ho t ha⟩
  · exact .inr hrec

theorem Inv.returned (h : Inv s) {j : ℕ} {job : Job} {o : Processor.Outcome}
    (hj : s.jobs[j]? = some job) (hs : job.status = .running) (hn : normal o = true)
    (hl : job.task ∈ s.life.live) :
    Inv { setStatus s j job (.returned o) with lastReturn := some s.now } := by
  have ho : isOpen job.status = true := by rw [hs]; rfl
  refine h.settle hj (by simp) ho ?_ (.inl ⟨job.task, hl, ?_⟩)
  · rintro x hx
    cases hx
    exact le_rfl
  · have hlt : j < s.jobs.length := (List.getElem?_eq_some_iff.mp hj).1
    have hi : (setStatus s j job (.returned o)).jobs[j]? =
        some { job with status := .returned o } := List.getElem?_set_self hlt
    have hpc := h.awaited j job hj ho hl
    rw [awaitsNormal, awaits_sending (s := setStatus s j job (.returned o)) _ hpc hi]
    exact hn

/-! ## Runs -/

/-- **One lawful step.** -/
theorem step_inv {a : Act} (h : Inv s) (hlaw : Lawful s a) (hstep : step s a = some s') :
    Inv s' := by
  cases a with
  | advance now =>
    simp only [step] at hstep
    split_ifs at hstep with hle
    cases hstep
    exact h.advance hle
  | life a d =>
    simp only [step, Option.map_eq_some_iff] at hstep
    obtain ⟨l, hl, rfl⟩ := hstep
    exact h.life hlaw hl
  | enqueue m =>
    cases hstep
    exact h.enqueuePass m
  | proc t e =>
    simp only [step] at hstep
    split_ifs at hstep with ht
    exact h.moves ht hlaw (procStep_moves hstep)
  | jobStart j =>
    simp only [step, Option.bind_eq_some_iff] at hstep
    obtain ⟨job, hj, hstep⟩ := hstep
    split_ifs at hstep with hs
    cases hstep
    exact h.failed hj (by simp) (by rw [hs]; rfl)
  | jobReturn j o =>
    simp only [step, Option.bind_eq_some_iff] at hstep
    obtain ⟨job, hj, hstep⟩ := hstep
    split_ifs at hstep with hs hn
    · cases hstep
      exact h.returned hj hs hn (hlaw hn job hj)
    · cases hstep
      exact h.failed hj (by simp) (by rw [hs]; rfl)
  | jobCancel j =>
    simp only [step, Option.bind_eq_some_iff] at hstep
    obtain ⟨job, hj, hstep⟩ := hstep
    split_ifs at hstep with hs
    cases hstep
    exact h.failed hj (by simp) (by rw [hs]; rfl)

theorem step_rateLimited {a : Act} (h : Inv s) (hstep : step s a = some s') : RateLimited s a := by
  cases a with
  | jobStart j =>
    simp only [step, Option.bind_eq_some_iff] at hstep
    obtain ⟨job, hj, hstep⟩ := hstep
    split_ifs at hstep with hs
    exact h.rateLimited hj hs
  | advance _ | life _ _ | enqueue _ | proc _ _ | jobReturn _ _ | jobCancel _ => trivial

/-- **The rate limit.** In every run whose steps are lawful, each send starts at least
`_message_delay` after the return of the most recent send that returned normally. -/
theorem rateLimited_run (clock : ℚ) (acts : List Act)
    (h : AllSteps step Lawful (init clock) acts) : AllSteps step RateLimited (init clock) acts :=
  allSteps_of_invariant (fun _ _ _ => step_inv) (fun _ _ _ hi => step_rateLimited hi) (inv_init clock) h

/-- The client is connected. -/
def up : Link := .module false (some .absent)

/-- Two messages in one life of the queue: the second waits for the delay. -/
def twoSends : List Act :=
  [.life (.start true) 2, .enqueue ⟨0, false⟩, .enqueue ⟨1, false⟩, .proc 0 .tick,
    .proc 0 (.link up), .proc 0 .tick, .proc 0 (.link up), .jobStart 0, .advance 11,
    .jobReturn 0 (.value true), .proc 0 .tick, .proc 0 .tick, .proc 0 (.link up), .proc 0 .tick,
    .advance 13, .proc 0 .tick, .proc 0 (.link up), .proc 0 (.link up), .jobStart 1]

/-- The run of the two sends is lawful, goes to its end and is rate limited. -/
theorem rateLimited_twoSends : (runActs step (init 10) twoSends).isSome = true ∧
    AllSteps step Lawful (init 10) twoSends ∧ AllSteps step RateLimited (init 10) twoSends := by
  have hl : AllSteps step Lawful (init 10) twoSends := by decide +kernel
  exact ⟨by decide +kernel, hl, rateLimited_run 10 twoSends hl⟩

/-- A send is under way when another thread calls `stop()`: the coroutine is cancelled, the send
returns normally, the executor is shut down and the stop completes. A restarted queue sends its
first message at once. -/
def interruptedSend : List Act :=
  [.life (.start true) 2, .enqueue ⟨0, false⟩, .proc 0 .tick, .proc 0 (.link up), .proc 0 .tick,
    .proc 0 (.link up), .jobStart 0, .life (.stop false) 2,
    .life (.thread 0 (.loop (.running true))) 2, .life (.thread 1 .quiet) 2,
    .life (.taskFinish 0) 2, .life (.thread 1 .quiet) 2, .life (.thread 1 .quiet) 2,
    .life (.thread 1 .quiet) 2, .life (.thread 1 .quiet) 2, .life (.thread 0 .quiet) 2,
    .life (.thread 0 .quiet) 2, .jobReturn 0 (.value true), .life (.thread 2 .quiet) 2,
    .life (.thread 2 .quiet) 2, .life (.thread 2 .quiet) 2, .life (.thread 2 .quiet) 2,
    .life (.thread 2 .quiet) 2, .life (.start true) 2, .enqueue ⟨1, false⟩, .proc 1 .tick,
    .proc 1 (.link up), .proc 1 .tick, .proc 1 (.link up), .jobStart 1]

/-- The second send starts when the first returns, two ticks too early. -/
theorem interruptedSend_unlimited :
    ((runActs step (init 10) interruptedSend).any fun s =>
      s.lastReturn == some s.now && s.messageDelay == 2) = true ∧
    ¬ AllSteps step RateLimited (init 10) interruptedSend := by
  constructor
  · decide +kernel
  · decide +kernel

end MMRelay.Timed
