import MMRelay.Lib.Run

/-!
# The readiness file

The file of `MMRELAY_READY_FILE` that tells a probe that the relay has started (`main.py`):
`_write_ready_file`, `_touch_ready_file`, `_remove_ready_file`, `_ready_heartbeat`,
`_wait_for_startup_drain_completion`, the loop around `sync_forever` and the way out of `main`. The
file is written and touched in threads, which go on when the task that waits for them is cancelled.

* `State`, `Act`, `step`: the task of `main`, the heartbeat and the threads;
* `Removes`, `Joins`: no removal fails; no thread is left behind;
* `Inv`, `Settled`: what the runs keep;
* **`ready_file`**: when there is a file, during a run and after it.
-/

namespace MMRelay.Main

/-- Where `main` is, from the start of its loop on. -/
inductive Pc
  | looping
  /-- In `_wait_for_startup_drain_completion`. -/
  | draining
  /-- A thread is in `_write_ready_file`. -/
  | writing
  | written
  /-- A thread is in `_remove_ready_file`, for a start that has failed. -/
  | removing
  | removed
  /-- Waiting for the end of the synchronisation or of the relay. -/
  | syncing
  | retrying
  /-- In `finally`, waiting for the heartbeat. -/
  | finishing
  | returned
  deriving DecidableEq

/-- Before `finally`. -/
def Pc.isRunning : Pc → Bool
  | finishing | returned => false
  | _ => true

/-- Where `_ready_heartbeat` is. -/
inductive Beat
  | absent
  | top
  /-- A thread is in `_touch_ready_file`. -/
  | touching
  | waiting
  | done
  deriving DecidableEq

structure State where
  pc : Pc
  beat : Beat
  file : Bool
  shutdown : Bool
  /-- `sync_task` is not done. -/
  syncs : Bool
  /-- The event of the startup drain, or there is none. -/
  drained : Bool
  published : Bool
  /-- Threads that nobody waits for any more, and that will make the file. -/
  makers : ℕ
  /-- Those that will remove it. -/
  removers : ℕ
  deriving DecidableEq

/-- `main` before its loop, perhaps with the file of an earlier process. -/
def start (leftover : Bool) : State where
  pc := .looping
  beat := .absent
  file := leftover
  shutdown := false
  syncs := false
  drained := false
  published := false
  makers := 0
  removers := 0

/-- What happens next. -/
inductive Act
  | signal
  | syncEnds
  | drainCompletes
  /-- A turn of the loop begins. -/
  | turn
  | drainEnds
  /-- The thread of `_write_ready_file` ends; an `OSError` is suppressed. -/
  | write (ok : Bool)
  | afterWrite
  | remove (ok : Bool)
  | afterRemove
  | wake
  | retry
  | cancel
  | test
  | touch (ok : Bool)
  /-- The heartbeat's wait ends. -/
  | tick
  /-- The time for the heartbeat to end is over, and it is cancelled. -/
  | expire
  | finish (ok : Bool)
  /-- A thread that was left behind ends. -/
  | lateMake (ok : Bool)
  | lateRemove (ok : Bool)
  deriving DecidableEq

/-- A thread makes the file; `touch` creates it where it is not there. -/
def State.makes (s : State) (ok : Bool) : State := { s with file := s.file || ok }

/-- `_remove_ready_file`. -/
def State.unmakes (s : State) (ok : Bool) : State := { s with file := s.file && !ok }

/-- The loop is left for `finally`; a thread that `main` waited for goes on. -/
def State.leave (s : State) : State :=
  { s with
    pc := .finishing
    shutdown := true
    syncs := false
    makers := s.makers + if s.pc = .writing then 1 else 0
    removers := s.removers + if s.pc = .removing then 1 else 0 }

variable (heartbeat : Bool)

/-- One step; `heartbeat` is `MMRELAY_READY_HEARTBEAT_SECONDS > 0`. -/
def step (s : State) : Act → Option State
  | .signal => some { s with shutdown := true }
  | .syncEnds => if s.syncs then some { s with syncs := false } else none
  | .drainCompletes => some { s with drained := true }
  | .turn =>
    if s.pc = .looping then
      if s.shutdown then some s.leave
      else some { s with syncs := true, pc := if s.published then .syncing else .draining }
    else none
  | .drainEnds =>
    if s.pc = .draining ∧ (s.drained ∨ s.shutdown ∨ s.syncs = false) then
      some { s with pc := if s.shutdown ∨ s.syncs = false then .syncing else .writing }
    else none
  | .write ok => if s.pc = .writing then some { s.makes ok with pc := .written } else none
  | .afterWrite =>
    if s.pc = .written then
      if s.shutdown ∨ s.syncs = false then some { s with pc := .removing }
      else some { s with
        pc := .syncing
        published := true
        beat := if heartbeat ∧ s.beat = .absent then .top else s.beat }
    else none
  | .remove ok => if s.pc = .removing then some { s.unmakes ok with pc := .removed } else none
  | .afterRemove => if s.pc = .removed then some { s with pc := .syncing } else none
  | .wake =>
    if s.pc = .syncing then
      if s.shutdown then some s.leave
      else if s.syncs then none
      else some { s with pc := .retrying }
    else none
  | .retry => if s.pc = .retrying then some { s with pc := .looping } else none
  | .cancel => if s.pc.isRunning then some s.leave else none
  | .test =>
    if s.beat = .top then some { s with beat := if s.shutdown then .done else .touching } else none
  | .touch ok => if s.beat = .touching then some { s.makes ok with beat := .waiting } else none
  | .tick => if s.beat = .waiting then some { s with beat := .top } else none
  | .expire =>
    if s.pc = .finishing ∧ s.beat ≠ .absent ∧ s.beat ≠ .done then
      some { s with beat := .done, makers := s.makers + if s.beat = .touching then 1 else 0 }
    else none
  | .finish ok =>
    if s.pc = .finishing ∧ (s.beat = .absent ∨ s.beat = .done) then
      some { s.unmakes ok with pc := .returned }
    else none
  | .lateMake ok =>
    if s.makers = 0 then none else some { s.makes ok with makers := s.makers - 1 }
  | .lateRemove ok =>
    if s.removers = 0 then none else some { s.unmakes ok with removers := s.removers - 1 }

/-! ## Guards -/

/-- No removal that `main` makes fails. -/
def Removes (_ : State) (a : Act) : Prop := a ≠ .remove false ∧ a ≠ .finish false

/-- No thread that makes the file is left behind: `main` is not cancelled in the middle of
`_write_ready_file`, and the heartbeat not in the middle of `_touch_ready_file`. -/
def Joins (s : State) (a : Act) : Prop :=
  ¬ (a = .cancel ∧ s.pc = .writing) ∧ ¬ (a = .expire ∧ s.beat = .touching)

instance (s : State) (a : Act) : Decidable (Removes s a) :=
  inferInstanceAs (Decidable (a ≠ .remove false ∧ a ≠ .finish false))

instance (s : State) (a : Act) : Decidable (Joins s a) :=
  inferInstanceAs (Decidable (¬ (a = .cancel ∧ s.pc = .writing) ∧
    ¬ (a = .expire ∧ s.beat = .touching)))

/-! ## Invariants -/

/-- The start has come to the point where the file is written. -/
def Pc.isPublishing : Pc → Bool
  | writing | written | removing => true
  | _ => false

/-- What every run keeps whose removals do not fail. -/
structure Inv (leftover : Bool) (s : State) : Prop where
  beat : s.beat ≠ .absent → s.published = true
  drained : s.published = true ∨ s.pc.isPublishing = true → s.drained = true
  /-- Only in `finally` there are threads that nobody waits for. -/
  joined : s.pc.isRunning = true → s.makers = 0 ∧ s.removers = 0
  /-- Before it, the file is there for a reason. -/
  reason : s.pc.isRunning = true → s.file = true →
    leftover = true ∨ s.published = true ∨ s.pc = .written ∨ s.pc = .removing
  ended : s.pc = .returned → s.beat = .absent ∨ s.beat = .done
  shut : s.pc.isRunning = false → s.shutdown = true

theorem inv_start (leftover : Bool) : Inv leftover (start leftover) where
  beat h := absurd rfl h
  drained h := by simp [start, Pc.isPublishing] at h
  joined _ := ⟨rfl, rfl⟩
  reason _ h := .inl h
  ended h := by simp [start] at h
  shut h := by simp [start, Pc.isRunning] at h

variable {heartbeat} {leftover : Bool} {s s' : State}

theorem Inv.leave (h : Inv leftover s) : Inv leftover s.leave where
  beat := h.beat
  drained hp := h.drained (hp.imp_right fun hfinishing => by cases hfinishing)
  joined hr := by cases hr
  reason hr := by cases hr
  ended he := by cases he
  shut _ := rfl

section Steps

variable (h : Inv leftover s)
include h

/-- Before `finally`, from where no file is to be published or taken back. -/
theorem Inv.moves {pc : Pc} {syncs : Bool} (hrunning : s.pc.isRunning = true)
    (hfrom : s.pc ≠ .written ∧ s.pc ≠ .removing) (hto : pc.isRunning = true)
    (hdrained : pc.isPublishing = true → s.drained = true) :
    Inv leftover
      { s with
        pc := pc
        syncs := syncs } where
  beat := h.beat
  drained hp := hp.elim (fun hpublished => h.drained (.inl hpublished)) hdrained
  joined _ := h.joined hrunning
  reason _ hfile := by
    rcases h.reason hrunning hfile with hleft | hpublished | hwritten | hremoving
    · exact .inl hleft
    · exact .inr (.inl hpublished)
    · exact absurd hwritten hfrom.1
    · exact absurd hremoving hfrom.2
  ended he := by
    rw [show pc = .returned from he] at hto
    cases hto
  shut hstopped := by
    rw [show pc.isRunning = false from hstopped] at hto
    cases hto

theorem Inv.write (hpc : s.pc = .writing) (ok : Bool) :
    Inv leftover { s.makes ok with pc := .written } := by
  obtain ⟨hbeat, hdrained, hjoined, -, -, -⟩ := h
  rw [hpc] at hdrained hjoined
  constructor <;> simp_all [State.makes, Pc.isPublishing, Pc.isRunning]

theorem Inv.afterWrite (hpc : s.pc = .written) :
    Inv leftover { s with pc := .removing } ∧ ∀ beat, Inv leftover
      { s with
        pc := .syncing
        published := true
        beat := beat } := by
  obtain ⟨hbeat, hdrained, hjoined, -, -, -⟩ := h
  rw [hpc] at hdrained hjoined
  constructor
  · constructor <;> simp_all [Pc.isPublishing, Pc.isRunning]
  · intro beat
    constructor <;> simp_all [Pc.isPublishing, Pc.isRunning]

theorem Inv.remove (hpc : s.pc = .removing) :
    Inv leftover { s.unmakes true with pc := .removed } := by
  obtain ⟨hbeat, hdrained, hjoined, -, -, -⟩ := h
  rw [hpc] at hdrained hjoined
  constructor <;> simp_all [State.unmakes, Pc.isPublishing, Pc.isRunning]

theorem Inv.beats (hon : s.beat ≠ .absent ∧ s.beat ≠ .done) (beat : Beat) :
    Inv leftover { s with beat := beat } ∧
      ∀ ok, Inv leftover { s.makes ok with beat := beat } := by
  obtain ⟨hbeat, hdrained, hjoined, hreason, hended, hshut⟩ := h
  have hpublished := hbeat hon.1
  have hreturned : s.pc ≠ .returned := by
    intro he
    rcases hended he with habsent | hdone
    · exact hon.1 habsent
    · exact hon.2 hdone
  constructor
  · constructor <;> simp_all
  · intro ok
    constructor <;> simp_all [State.makes]

theorem Inv.finish (hpc : s.pc = .finishing) (hbeat : s.beat = .absent ∨ s.beat = .done) :
    Inv leftover { s.unmakes true with pc := .returned } where
  beat := h.beat
  drained hp := h.drained (hp.imp_right fun hpublishing => by cases hpublishing)
  joined hr := by cases hr
  reason hr := by cases hr
  ended _ := hbeat
  shut _ := h.shut (by rw [hpc]; rfl)

theorem Inv.late {file : Bool} {makers removers : ℕ} (hleft : s.makers ≠ 0 ∨ s.removers ≠ 0) :
    Inv leftover { s with file := file, makers := makers, removers := removers } := by
  have hstopped : s.pc.isRunning = false := by
    by_contra hr
    rw [Bool.not_eq_false] at hr
    have hnone := h.joined hr
    omega
  constructor
  · exact h.beat
  · exact h.drained
  · exact fun hr => absurd hr (by simp [hstopped])
  · exact fun hr => absurd hr (by simp [hstopped])
  · exact h.ended
  · exact h.shut

end Steps

theorem Inv.step {a : Act} (h : Inv leftover s) (hremoves : Removes s a)
    (hstep : step heartbeat s a = some s') : Inv leftover s' := by
  cases a with
  | signal | drainCompletes =>
    cases hstep
    obtain ⟨hbeat, hdrained, hjoined, hreason, hended, hshut⟩ := h
    constructor <;> simp_all
  | syncEnds =>
    obtain ⟨-, heq⟩ := Option.ite_none_right_eq_some.mp hstep
    cases heq
    exact ⟨h.beat, h.drained, h.joined, h.reason, h.ended, h.shut⟩
  | afterRemove | retry =>
    obtain ⟨hguard, heq⟩ := Option.ite_none_right_eq_some.mp hstep
    cases heq
    exact h.moves (by rw [hguard]; rfl) (by simp [hguard]) rfl (by simp [Pc.isPublishing])
  | drainEnds =>
    obtain ⟨⟨hpc, hend⟩, heq⟩ := Option.ite_none_right_eq_some.mp hstep
    cases heq
    refine h.moves (by rw [hpc]; rfl) (by simp [hpc]) (by split_ifs <;> rfl) fun hpublishing => ?_
    split_ifs at hpublishing with hstopped
    · cases hpublishing
    · exact hend.resolve_right hstopped
  | turn =>
    obtain ⟨hguard, heq⟩ := Option.ite_none_right_eq_some.mp hstep
    split at heq
    · cases heq
      exact h.leave
    · cases heq
      refine h.moves (by rw [hguard]; rfl) (by simp [hguard]) (by split_ifs <;> rfl)
        fun hpublishing => ?_
      split_ifs at hpublishing <;> cases hpublishing
  | wake =>
    obtain ⟨hguard, heq⟩ := Option.ite_none_right_eq_some.mp hstep
    split_ifs at heq with hshutdown hsyncs
    · cases heq
      exact h.leave
    · cases heq
      exact h.moves (by rw [hguard]; rfl) (by simp [hguard]) rfl (by simp [Pc.isPublishing])
  | cancel =>
    obtain ⟨hguard, heq⟩ := Option.ite_none_right_eq_some.mp hstep
    cases heq
    exact h.leave
  | write ok =>
    obtain ⟨hguard, heq⟩ := Option.ite_none_right_eq_some.mp hstep
    cases heq
    exact h.write hguard ok
  | afterWrite =>
    obtain ⟨hguard, heq⟩ := Option.ite_none_right_eq_some.mp hstep
    split at heq
    · cases heq
      exact (h.afterWrite hguard).1
    · cases heq
      exact (h.afterWrite hguard).2 _
  | remove ok =>
    obtain ⟨hguard, heq⟩ := Option.ite_none_right_eq_some.mp hstep
    cases heq
    cases ok with
    | true => exact h.remove hguard
    | false => exact absurd rfl hremoves.1
  | finish ok =>
    obtain ⟨hguard, heq⟩ := Option.ite_none_right_eq_some.mp hstep
    cases heq
    cases ok with
    | true => exact h.finish hguard.1 hguard.2
    | false => exact absurd rfl hremoves.2
  | test | tick =>
    obtain ⟨hguard, heq⟩ := Option.ite_none_right_eq_some.mp hstep
    cases heq
    exact (h.beats (by simp [hguard]) _).1
  | touch ok =>
    obtain ⟨hguard, heq⟩ := Option.ite_none_right_eq_some.mp hstep
    cases heq
    exact (h.beats (by simp [hguard]) _).2 ok
  | expire =>
    obtain ⟨⟨hpc, hon⟩, heq⟩ := Option.ite_none_right_eq_some.mp hstep
    cases heq
    obtain ⟨hbeat, hdrained, hjoined, hreason, hended, hshut⟩ := (h.beats hon .done).1
    constructor <;> simp_all [Pc.isRunning]
  | lateMake ok =>
    obtain ⟨hguard, heq⟩ := Option.ite_none_left_eq_some.mp hstep
    cases heq
    exact h.late (.inl hguard)
  | lateRemove ok =>
    obtain ⟨hguard, heq⟩ := Option.ite_none_left_eq_some.mp hstep
    cases heq
    exact h.late (.inr hguard)

/-- What the runs keep in which, besides, no thread is left behind. -/
structure Settled (s : State) : Prop where
  none_left : s.makers = 0
  gone : s.pc = .returned → s.file = false

theorem Settled.step {a : Act} (h : Inv leftover s) (hs : Settled s) (hremoves : Removes s a)
    (hjoins : Joins s a) (hstep : Main.step heartbeat s a = some s') : Settled s' := by
  obtain ⟨hleft, hgone⟩ := hs
  have hleave (hnot : s.pc ≠ .writing) : Settled s.leave :=
    ⟨by simp [State.leave, hleft, hnot], fun he => by cases he⟩
  cases a with
  | signal | drainCompletes =>
    cases hstep
    exact ⟨hleft, hgone⟩
  | syncEnds =>
    obtain ⟨-, heq⟩ := Option.ite_none_right_eq_some.mp hstep
    cases heq
    exact ⟨hleft, hgone⟩
  | turn =>
    obtain ⟨hguard, heq⟩ := Option.ite_none_right_eq_some.mp hstep
    split at heq
    · cases heq
      exact hleave (by simp [hguard])
    · cases heq
      refine ⟨hleft, fun he => ?_⟩
      dsimp only at he
      split_ifs at he
  | wake =>
    obtain ⟨hguard, heq⟩ := Option.ite_none_right_eq_some.mp hstep
    split_ifs at heq
    · cases heq
      exact hleave (by simp [hguard])
    · cases heq
      exact ⟨hleft, fun he => by cases he⟩
  | cancel =>
    obtain ⟨-, heq⟩ := Option.ite_none_right_eq_some.mp hstep
    cases heq
    exact hleave fun hwriting => hjoins.1 ⟨rfl, hwriting⟩
  | write | remove | afterRemove | retry =>
    obtain ⟨-, heq⟩ := Option.ite_none_right_eq_some.mp hstep
    cases heq
    exact ⟨hleft, fun he => by cases he⟩
  | drainEnds =>
    obtain ⟨-, heq⟩ := Option.ite_none_right_eq_some.mp hstep
    cases heq
    refine ⟨hleft, fun he => ?_⟩
    dsimp only at he
    split_ifs at he
  | afterWrite =>
    obtain ⟨-, heq⟩ := Option.ite_none_right_eq_some.mp hstep
    split at heq
    · cases heq
      exact ⟨hleft, fun he => by cases he⟩
    · cases heq
      exact ⟨hleft, fun he => by cases he⟩
  | test | tick =>
    obtain ⟨-, heq⟩ := Option.ite_none_right_eq_some.mp hstep
    cases heq
    exact ⟨hleft, hgone⟩
  | touch ok =>
    -- the heartbeat has ended when `main` has
    obtain ⟨hguard, heq⟩ := Option.ite_none_right_eq_some.mp hstep
    cases heq
    refine ⟨hleft, fun he => ?_⟩
    have hended := h.ended he
    rw [hguard] at hended
    simp at hended
  | expire =>
    obtain ⟨⟨hpc, -⟩, heq⟩ := Option.ite_none_right_eq_some.mp hstep
    cases heq
    have hnot : s.beat ≠ .touching := fun htouching => hjoins.2 ⟨rfl, htouching⟩
    refine ⟨by simp [hleft, hnot], fun he => ?_⟩
    rw [show s.pc = .returned from he] at hpc
    cases hpc
  | finish ok =>
    obtain ⟨-, heq⟩ := Option.ite_none_right_eq_some.mp hstep
    cases heq
    have hok : ok = true := by
      cases ok with
      | true => rfl
      | false => exact absurd rfl hremoves.2
    exact ⟨hleft, fun _ => by simp [State.unmakes, hok]⟩
  | lateMake ok =>
    rw [Main.step, if_pos hleft] at hstep
    cases hstep
  | lateRemove ok =>
    obtain ⟨-, heq⟩ := Option.ite_none_left_eq_some.mp hstep
    cases heq
    exact ⟨hleft, fun he => by simp [State.unmakes, hgone he]⟩

/-- No publication after the signal. -/
theorem step_published {a : Act} (hshutdown : s.shutdown = true)
    (hstep : Main.step heartbeat s a = some s') :
    s'.shutdown = true ∧ s'.published = s.published := by
  cases a <;> grind [Main.step, State.leave, State.makes, State.unmakes]

/-- After `main`, with nothing left that makes a file. -/
structure Quiet (s : State) : Prop where
  returned : s.pc = .returned
  beat : s.beat = .absent ∨ s.beat = .done
  file : s.file = false
  none_left : s.makers = 0

theorem Quiet.step {a : Act} (h : Quiet s) (hstep : Main.step heartbeat s a = some s') :
    Quiet s' := by
  obtain ⟨hreturned, hbeat, hfile, hleft⟩ := h
  cases a <;> constructor <;>
    grind [Main.step, State.leave, State.makes, State.unmakes, Pc.isRunning]

/-! ## Runs -/

variable {as : List Act} {t : State}

theorem inv_run (hrun : runActs (step heartbeat) (start leftover) as = some t)
    (hremoves : AllSteps (step heartbeat) Removes (start leftover) as) : Inv leftover t :=
  runActs_induct (fun _ _ _ hs hg hstep => hs.step hg hstep) (inv_start leftover) hremoves hrun

theorem settled_run (hrun : runActs (step heartbeat) (start leftover) as = some t)
    (hremoves : AllSteps (step heartbeat) Removes (start leftover) as)
    (hjoins : AllSteps (step heartbeat) Joins (start leftover) as) : Settled t := by
  have hstart : Inv leftover (start leftover) ∧ Settled (start leftover) :=
    ⟨inv_start leftover, rfl, by simp [start]⟩
  refine (runActs_induct (P := fun s => Inv leftover s ∧ Settled s) ?_ hstart
    (hremoves.and hjoins) hrun).2
  rintro s a s' ⟨hinv, hsettled⟩ ⟨hremoves, hjoins⟩ hstep
  exact ⟨hinv.step hremoves hstep, hsettled.step hinv hremoves hjoins hstep⟩

/-- After `main`, a file can be there exactly if it is there already or a thread was left behind. -/
theorem appears_iff (hinv : Inv leftover t) (hreturned : t.pc = .returned) :
    (∃ bs u, runActs (step heartbeat) t bs = some u ∧ u.file = true) ↔
      t.file = true ∨ 0 < t.makers := by
  constructor
  · rintro ⟨bs, u, hrun, hfile⟩
    by_contra hnone
    rw [not_or, Bool.not_eq_true, Nat.not_lt, Nat.le_zero] at hnone
    have hquiet : Quiet t := ⟨hreturned, hinv.ended hreturned, hnone.1, hnone.2⟩
    have hu : Quiet u := runActs_keeps (fun _ _ _ hs hstep => hs.step hstep) hquiet hrun
    rw [hu.file] at hfile
    cases hfile
  · rintro (hfile | hleft)
    · exact ⟨[], t, rfl, hfile⟩
    · refine ⟨[.lateMake true], { t.makes true with makers := t.makers - 1 }, ?_, Bool.or_true _⟩
      simp [step, Nat.pos_iff_ne_zero.mp hleft]

/-- **The readiness file.** In every run whose removals succeed: before `finally` a file that no
earlier process left is there only after the startup drain, and is published, about to be, or about
to be taken back; the signal ends all publication; after `main` a file can appear exactly if one is
there or a thread was left behind; and if none was left behind on the way, there is none. -/
theorem ready_file (heartbeat leftover : Bool) (as : List Act) (t : State)
    (hrun : runActs (step heartbeat) (start leftover) as = some t)
    (hremoves : AllSteps (step heartbeat) Removes (start leftover) as) :
    (t.pc.isRunning = true → t.file = true → leftover = true ∨ t.drained = true ∧
      (t.published = true ∨ t.pc = .written ∨ t.pc = .removing)) ∧
    (t.shutdown = true → ∀ bs u, runActs (step heartbeat) t bs = some u →
      u.published = t.published) ∧
    (t.pc = .returned →
      ((∃ bs u, runActs (step heartbeat) t bs = some u ∧ u.file = true) ↔
        t.file = true ∨ 0 < t.makers) ∧
      (AllSteps (step heartbeat) Joins (start leftover) as → t.file = false ∧ t.makers = 0)) := by
  have hinv := inv_run hrun hremoves
  refine ⟨fun hrunning hfile => ?_, fun hshutdown bs u hu => ?_, fun hreturned => ?_⟩
  · rcases hinv.reason hrunning hfile with hleft | hwhy
    · exact .inl hleft
    · refine .inr ⟨hinv.drained ?_, hwhy⟩
      rcases hwhy with hpublished | hwritten | hremoving
      · exact .inl hpublished
      · exact .inr (by rw [hwritten]; rfl)
      · exact .inr (by rw [hremoving]; rfl)
  · have hkept : u.shutdown = true ∧ u.published = t.published := by
      refine runActs_keeps (P := fun s => s.shutdown = true ∧ s.published = t.published) ?_
        ⟨hshutdown, rfl⟩ hu
      rintro s a s' ⟨hs, hpublished⟩ hstep
      obtain ⟨hs', hpublished'⟩ := step_published hs hstep
      exact ⟨hs', hpublished'.trans hpublished⟩
    exact hkept.2
  · refine ⟨appears_iff hinv hreturned, fun hjoins => ?_⟩
    have hsettled := settled_run hrun hremoves hjoins
    exact ⟨hsettled.gone hreturned, hsettled.none_left⟩

/-- A relay that starts, touches its file and is stopped. -/
def served : List Act :=
  [.turn, .drainCompletes, .drainEnds, .write true, .afterWrite, .test, .touch true, .signal, .wake]

/-- The heartbeat ends in time, and the file stays away. -/
theorem ready_file_served : ∃ t,
    runActs (step true) (start false) (served ++ [.tick, .test, .finish true]) = some t ∧
      t.pc = .returned ∧ ¬ ∃ bs u, runActs (step true) t bs = some u ∧ u.file = true := by
  obtain ⟨t, hrun⟩ : ∃ t,
      runActs (step true) (start false) (served ++ [.tick, .test, .finish true]) = some t := ⟨_, rfl⟩
  have hreturned : t.pc = .returned := by
    cases hrun
    rfl
  have hremoves : AllSteps (step true) Removes (start false)
      (served ++ [.tick, .test, .finish true]) := by decide
  have hjoins : AllSteps (step true) Joins (start false)
      (served ++ [.tick, .test, .finish true]) := by decide
  have hready := (ready_file true false _ t hrun hremoves).2.2 hreturned
  obtain ⟨hfile, hleft⟩ := hready.2 hjoins
  refine ⟨t, hrun, hreturned, fun happears => ?_⟩
  rcases hready.1.mp happears with h | h
  · rw [hfile] at h
    cases h
  · omega

/-- A touch that takes longer than the heartbeat is given brings the file back after `main`. -/
theorem late_touch : (runActs (step true) (start false)
    [.turn, .drainCompletes, .drainEnds, .write true, .afterWrite, .test, .signal, .wake, .expire,
      .finish true, .lateMake true]).map (fun t => (t.pc, t.file)) = some (.returned, true) := rfl

end MMRelay.Main
