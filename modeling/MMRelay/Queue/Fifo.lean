import MMRelay.Queue.Processor

/-!
# Conservation and order of the queued messages

`line` reads the finished messages, the one that is held and the queued ones in this order. A step of
the only coroutine leaves the line as it is, takes the held message out of it when a requeue fails,
or, when an exception escapes the coroutine's handlers, loses the held message without a trace.

* `Change`, `coroutine_change`: what a step can do to the line, the losses and the counters;
* `Only`, `Only.procStep`: at most one coroutine is unfinished;
* `Inv`, `step_inv`: the line is a sublist of the accepted messages, and what is missing from it
  was lost by a failed requeue;
* `Handled`: no exception escapes;
* **`run_conserved`**: then in every state each accepted message is in exactly one place, everything
  is in order of acceptance, the queue is bounded and the drop counter is exact;
* `cancelledSend_vanishes`: a send that raises a `CancelledError`.
-/

namespace MMRelay.Processor

/-- Finished, held and queued messages, oldest first. -/
def line (s : State) (held : Option Message) : List Message :=
  s.finished ++ held.toList ++ s.queue

section Change

variable (s : State) (c : Option Message) (s' : State) (c' : Option Message)

/-- The message leaves the line by a failed requeue. -/
structure Lost (m : Message) : Prop where
  current : c = some m
  full : s.queue.length = s'.queue.length
  line : line s' c' = s.finished ++ s.queue
  accepted : s'.accepted = s.accepted
  lost : s'.lost = s.lost ++ [m]
  dropped : s'.dropped = s.dropped + 1
  rejections : s'.rejections = s.rejections

/-- The line and the counters are the same as before. -/
structure Kept : Prop where
  line : line s' c' = line s c
  accepted : s'.accepted = s.accepted
  lost : s'.lost = s.lost
  dropped : s'.dropped = s.dropped
  rejections : s'.rejections = s.rejections
  bound : s.queue.length ≤ maxQueueSize → s'.queue.length ≤ maxQueueSize

/-- What a step of a coroutine can do. -/
inductive Change : Prop
  | kept (h : Kept s c s' c')
  | lost (m : Message) (h : Lost s c s' c' m)

end Change

variable {s s' : State} {task task' : Task} {c : Option Message}

theorem Kept.of_eq (hq : s'.queue = s.queue) (hf : s'.finished = s.finished)
    (ha : s'.accepted = s.accepted) (hl : s'.lost = s.lost) (hd : s'.dropped = s.dropped)
    (hr : s'.rejections = s.rejections) : Kept s c s' c :=
  ⟨by simp only [Processor.line, hq, hf], ha, hl, hd, hr, fun h => hq ▸ h⟩

theorem finish_change {t : State} {m : Message} (ht : Kept s none t none) (hq : t.queue = s.queue)
    (hf : t.finished = s.finished) :
    Change s (some m) (finish t m).1 (finish t m).2.current := by
  refine .kept ⟨?_, ht.accepted, ht.lost, ht.dropped, ht.rejections, fun h => ?_⟩
  · simp [line, finish, release, hq, hf]
  · simpa [finish, release, hq] using h

/-- A requeue puts the held message back in its place or, if producers have filled the queue,
loses it. -/
theorem requeueCurrent_change (s : State) (m : Message) :
    Change s (some m) (requeueCurrent s m).1 (requeueCurrent s m).2.current := by
  unfold requeueCurrent requeueMessage
  split_ifs with hfull
  · refine .lost m ⟨rfl, rfl, ?_, rfl, rfl, rfl, rfl⟩
    simp [line, release]
  · refine .kept ⟨?_, rfl, rfl, rfl, rfl, fun _ => ?_⟩
    · simp [line, release]
    · simp only [release, List.length_cons]
      omega

theorem tick_change {now : ℕ} (h : coroutine s task (.tick now) = some (s', task')) :
    Change s task.current s' task'.current := by
  simp only [coroutine] at h
  split at h
  · next hpc hcur =>
    split at h
    · cases h
      exact .kept (Kept.of_eq rfl rfl rfl rfl rfl rfl)
    · next m rest hq =>
      cases h
      refine .kept ⟨?_, rfl, rfl, rfl, rfl, fun hb => ?_⟩
      · simp [line, hcur, hq]
      · rw [hq, List.length_cons] at hb
        simp only
        omega
  · next hcur =>
    cases h
    rw [hcur]
    exact .kept (Kept.of_eq rfl rfl rfl rfl rfl rfl)
  · next hcur =>
    split_ifs at h <;> cases h <;> rw [hcur] <;> exact .kept (Kept.of_eq rfl rfl rfl rfl rfl rfl)
  · next hcur =>
    cases h
    rw [hcur]
    exact finish_change (Kept.of_eq rfl rfl rfl rfl rfl rfl) rfl rfl
  · cases h

theorem link_change {l : Link} (h : coroutine s task (.link l) = some (s', task')) :
    Change s task.current s' task'.current := by
  simp only [coroutine] at h
  split at h
  case h_4 hcur _ => cases h; rw [hcur]; exact requeueCurrent_change s _
  case h_7 hcur _ => cases h; rw [hcur]; exact requeueCurrent_change s _
  case h_9 => cases h
  all_goals
    rename_i hcur _
    cases h
    rw [hcur]
    exact .kept (Kept.of_eq rfl rfl rfl rfl rfl rfl)

theorem sent_change {o : Outcome} {now : ℕ}
    (h : coroutine s task (.sent o now) = some (s', task')) :
    Change s task.current s' task'.current := by
  simp only [coroutine] at h
  split at h
  · next hcur =>
    rw [hcur]
    split_ifs at h
    · cases h
      exact .kept (Kept.of_eq rfl rfl rfl rfl rfl rfl)
    · cases h
      exact finish_change (Kept.of_eq rfl rfl rfl rfl rfl rfl) rfl rfl
  · next hcur =>
    cases h
    rw [hcur]
    exact finish_change (Kept.of_eq rfl rfl rfl rfl rfl rfl) rfl rfl
  · next hcur =>
    rw [hcur]
    split_ifs at h
    · cases h
      exact requeueCurrent_change s _
    · cases h
      exact finish_change (Kept.of_eq rfl rfl rfl rfl rfl rfl) rfl rfl
  · cases h

/-- After the send, an exception that escapes ends the coroutine and nothing else. -/
theorem escaped_change {cancelled : Bool} (hpc : task.pc = .mapping)
    (h : coroutine s task (.escaped cancelled) = some (s', task')) :
    Change s task.current s' task'.current := by
  cases hcur : task.current with
  | none => simp [coroutine, hpc, hcur] at h
  | some m =>
    simp only [coroutine, hpc, hcur, Option.some.injEq] at h
    cases h
    refine .kept ⟨?_, rfl, rfl, rfl, rfl, fun hb => hb⟩
    simp [line]

/-! ## The only coroutine -/

/-- What every step of a coroutine leaves as it is, and where it may end. -/
structure Frame (s : State) (task : Task) (s' : State) (task' : Task) : Prop where
  running : task.pc ≠ .ended
  tasks : s'.tasks = s.tasks
  processorTask : s'.processorTask = s.processorTask
  ended : task'.pc = .ended → task'.current = none

theorem coroutine_frame {e : Event} (h : coroutine s task e = some (s', task')) :
    Frame s task s' task' := by
  cases e <;> simp only [coroutine] at h <;> constructor <;>
    grind [finish, release, requeueCurrent, requeueMessage, escape]

/-- No exception escapes the handlers of a coroutine before its message has been sent. -/
def Handled (s : State) (a : Act) : Prop :=
  ∀ t cancelled, a = .proc t (.escaped cancelled) → s.tasks[t]?.map Task.pc = some .mapping

/-- Every coroutine but `_processor_task` has ended, and one that has ended holds no message. -/
structure Only (s : State) : Prop where
  other : ∀ (t : ℕ) (a : Task), s.tasks[t]? = some a → s.processorTask = some t ∨ a.pc = .ended
  ended : ∀ (t : ℕ) (a : Task), s.tasks[t]? = some a → a.pc = .ended → a.current = none

/-- The message that `_processor_task` holds. -/
def held (s : State) : Option Message :=
  s.processorTask.bind fun t => s.tasks[t]?.bind Task.current

theorem Only.congr (h : Only s) (ht : s'.tasks = s.tasks)
    (hp : s'.processorTask = s.processorTask) : Only s' ∧ held s' = held s := by
  refine ⟨⟨?_, ?_⟩, by rw [held, held, ht, hp]⟩
  · rw [ht, hp]
    exact h.other
  · rw [ht]
    exact h.ended

theorem Only.ensureProcessorStarted (h : Only s) :
    Only (ensureProcessorStarted s) ∧ held (ensureProcessorStarted s) = held s := by
  unfold Processor.ensureProcessorStarted
  split_ifs with hinactive
  · have hended : ∀ (t : ℕ) (a : Task), s.tasks[t]? = some a → a.pc = .ended := by
      intro t a ha
      rcases h.other t a ha with hp | hended
      · simpa [taskInactive, hp, ha] using hinactive
      · exact hended
    have hheld : held s = none := by
      unfold held
      cases hp : s.processorTask with
      | none => rfl
      | some t =>
        cases ha : s.tasks[t]? with
        | none => simp [ha]
        | some a => simp [ha, h.ended t a ha (hended t a ha)]
    refine ⟨⟨fun t a ha => ?_, fun t a ha hpc => ?_⟩, ?_⟩
    · rcases Nat.lt_or_ge t s.tasks.length with hlt | hge
      · exact .inr (hended t a (by rwa [List.getElem?_append_left hlt] at ha))
      · obtain rfl : t = s.tasks.length := by grind
        exact .inl rfl
    · rcases Nat.lt_or_ge t s.tasks.length with hlt | hge
      · exact h.ended t a (by rwa [List.getElem?_append_left hlt] at ha) hpc
      · grind
    · rw [hheld]
      simp [held]
  · exact ⟨h, rfl⟩

theorem Only.procStep (h : Only s) {t : ℕ} {e : Event} (hstep : procStep s t e = some s') :
    Only s' ∧ ∃ q task task', s.tasks[t]? = some task ∧ coroutine s task e = some (q, task') ∧
      s' = { q with tasks := s.tasks.set t task' } ∧ held s = task.current ∧
      held s' = task'.current := by
  unfold Processor.procStep at hstep
  cases ha : s.tasks[t]? with
  | none => simp [ha] at hstep
  | some task =>
    simp only [ha, Option.map_eq_some_iff] at hstep
    obtain ⟨⟨q, task'⟩, hcor, rfl⟩ := hstep
    have hframe := coroutine_frame hcor
    have hp : s.processorTask = some t := (h.other t task ha).resolve_right hframe.running
    have hlt : t < s.tasks.length := (List.getElem?_eq_some_iff.mp ha).1
    refine ⟨⟨fun u a hu => ?_, fun u a hu hpc => ?_⟩, q, task, task', rfl, hcor, rfl, ?_, ?_⟩
    · rw [List.getElem?_set] at hu
      split_ifs at hu with heq
      · exact .inl (by rw [← heq]; exact hframe.processorTask.trans hp)
      · exact (h.other u a hu).imp_left fun hs => hframe.processorTask.trans hs
    · rw [List.getElem?_set] at hu
      split_ifs at hu with heq
      · cases hu
        exact hframe.ended hpc
      · exact h.ended u a hu hpc
    · simp [held, hp, ha]
    · simp [held, hframe.processorTask, hp, hlt]

/-- The messages that the coroutines hold. -/
def heldMessages (s : State) : List Message := s.tasks.flatMap fun a => a.current.toList

theorem flatMap_eq_of_others {α β : Type} {f : α → List β} {l : List α} {i : ℕ}
    (h : ∀ j a, l[j]? = some a → j ≠ i → f a = []) : l.flatMap f = (l[i]?.map f).getD [] := by
  induction l generalizing i with
  | nil => rfl
  | cons a l ih =>
    rw [List.flatMap_cons]
    cases i with
    | zero =>
      have hrest : l.flatMap f = [] := by
        rw [List.flatMap_eq_nil_iff]
        intro b hb
        obtain ⟨j, hj⟩ := List.mem_iff_getElem?.mp hb
        exact h (j + 1) b (by simpa using hj) (by omega)
      simp [hrest]
    | succ i =>
      have hrest := ih (i := i) fun j b hj hne => h (j + 1) b (by simpa using hj) (by omega)
      rw [h 0 a (by simp) (by omega), hrest]
      simp

theorem Only.heldMessages (h : Only s) : heldMessages s = (held s).toList := by
  unfold Processor.heldMessages held
  have hnone : ∀ (t : ℕ) (a : Task), s.tasks[t]? = some a → s.processorTask ≠ some t →
      a.current.toList = [] := by
    intro t a ha hne
    rw [h.ended t a ha ((h.other t a ha).resolve_left hne), Option.toList_none]
  cases hp : s.processorTask with
  | none =>
    rw [Option.bind_none, Option.toList_none, List.flatMap_eq_nil_iff]
    intro a ha
    obtain ⟨t, ht⟩ := List.mem_iff_getElem?.mp ha
    exact hnone t a ht (by simp [hp])
  | some i =>
    rw [flatMap_eq_of_others (i := i) fun t a ha hne => hnone t a ha (by simp [hp, Ne.symm hne])]
    rw [Option.bind_some]
    cases s.tasks[i]? with
    | none => rfl
    | some a => rfl

/-! ## The invariant -/

/-- Nothing is lost from the line except by a failed requeue, and nothing overtakes. -/
structure Inv (d₀ : ℕ) (s : State) : Prop where
  only : Only s
  stamps : s.accepted.map Message.stamp = List.range s.accepted.length
  perm : (line s (held s) ++ s.lost).Perm s.accepted
  order : (line s (held s)).Sublist s.accepted
  bound : s.queue.length ≤ maxQueueSize
  drops : s.dropped = d₀ + s.rejections + s.lost.length

/-- No coroutine of an earlier start is unfinished. -/
def Start.Fresh (i : Start) : Prop := ∀ a ∈ i.old, a = ⟨.ended, none⟩

theorem only_started {i : Start} (hfresh : i.Fresh) :
    Only (started i) ∧ held (started i) = none := by
  have hold : ∀ (t : ℕ) (a : Task), i.old[t]? = some a → a = ⟨.ended, none⟩ :=
    fun t a ha => hfresh a (List.mem_iff_getElem?.mpr ⟨t, ha⟩)
  unfold started held
  cases i.loopRunning with
  | false =>
    refine ⟨⟨fun t a ha => .inr ?_, fun t a ha _ => ?_⟩, ?_⟩
    · rw [hold t a ha]
    · rw [hold t a ha]
    · cases i.processorTask with
      | none => rfl
      | some t =>
        cases ha : i.old[t]? with
        | none => simp [ha]
        | some a => simp [ha, hold t a ha]
  | true =>
    refine ⟨⟨fun t a ha => ?_, fun t a ha hpc => ?_⟩, by simp⟩
    · rcases Nat.lt_or_ge t i.old.length with hlt | hge
      · exact .inr (by rw [hold t a (by simpa [List.getElem?_append_left hlt] using ha)])
      · obtain rfl : t = i.old.length := by grind
        exact .inl rfl
    · rcases Nat.lt_or_ge t i.old.length with hlt | hge
      · rw [hold t a (by simpa [List.getElem?_append_left hlt] using ha)]
      · grind

theorem inv_started {i : Start} (hfresh : i.Fresh) : Inv i.dropped (started i) where
  only := (only_started hfresh).1
  stamps := by
    simp only [started, leftover, List.map_map, List.length_map, List.length_range]
    exact List.map_id _
  perm := by
    rw [(only_started hfresh).2]
    simp [line, started]
  order := by
    rw [(only_started hfresh).2]
    simp [line, started]
  bound := by
    have := i.queued.isLt
    simp only [started, leftover, List.length_map, List.length_range]
    omega
  drops := rfl

variable {d₀ : ℕ}

theorem Inv.accept (h : Inv d₀ s) (mi : Bool) (space : s.queue.length < maxQueueSize) :
    Inv d₀ (accept s mi) := by
  obtain ⟨honly, hheld⟩ : Only (Processor.accept s mi) ∧ held (Processor.accept s mi) = held s :=
    h.only.congr rfl rfl
  have hline : line (Processor.accept s mi) (held s) =
      line s (held s) ++ [⟨s.accepted.length, mi⟩] := by
    simp [line, Processor.accept]
  refine ⟨honly, ?_, ?_, ?_, ?_, h.drops⟩
  · simp [Processor.accept, h.stamps, List.range_succ]
  · rw [hheld, hline]
    have hperm (m : Message) :
        (line s (held s) ++ [m] ++ s.lost).Perm (line s (held s) ++ s.lost ++ [m]) := by
      rw [List.append_assoc, List.append_assoc]
      exact List.perm_append_comm.append_left _
    exact (hperm _).trans (h.perm.append_right [⟨s.accepted.length, mi⟩])
  · rw [hheld, hline]
    exact h.order.append (List.Sublist.refl _)
  · simp only [Processor.accept, List.length_append, List.length_singleton]
    omega

theorem Inv.reject (h : Inv d₀ s) : Inv d₀ (reject s) := by
  obtain ⟨honly, hheld⟩ : Only (Processor.reject s) ∧ held (Processor.reject s) = held s :=
    h.only.congr rfl rfl
  refine ⟨honly, h.stamps, ?_, ?_, h.bound, ?_⟩
  · rw [hheld]
    exact h.perm
  · rw [hheld]
    exact h.order
  · show s.dropped + 1 = d₀ + (s.rejections + 1) + s.lost.length
    rw [h.drops]
    omega

theorem Inv.enqueuePass (h : Inv d₀ s) (admission : Queue.Admission)
    (mappingInfo wait timedOut : Bool) :
    Inv d₀ (enqueuePass s admission mappingInfo wait timedOut).2 := by
  unfold Processor.enqueuePass
  split_ifs
  · exact h
  · exact h.reject
  · exact h
  · exact h.reject
  · exact h.accept mappingInfo (by omega)

theorem coroutine_change {e : Event}
    (hhandled : ∀ cancelled, e = .escaped cancelled → task.pc = .mapping)
    (h : coroutine s task e = some (s', task')) : Change s task.current s' task'.current := by
  cases e with
  | tick now => exact tick_change h
  | link l => exact link_change h
  | sent o now => exact sent_change h
  | escaped cancelled => exact escaped_change (hhandled cancelled rfl) h

theorem Inv.procStep (h : Inv d₀ s) {t : ℕ} {e : Event} (hhandled : Handled s (.proc t e))
    (hstep : procStep s t e = some s') : Inv d₀ s' := by
  obtain ⟨honly, q, task, task', ha, hcor, rfl, hheld, hheld'⟩ := h.only.procStep hstep
  have hchange : Change s task.current q task'.current := by
    refine coroutine_change (fun cancelled he => ?_) hcor
    have hpc := hhandled t cancelled (by rw [he])
    simpa [ha] using hpc
  have hline (c : Option Message) : line { q with tasks := s.tasks.set t task' } c = line q c := rfl
  rcases hchange with hk | ⟨m, hl⟩
  · refine ⟨honly, hk.accepted ▸ h.stamps, ?_, ?_, hk.bound h.bound, ?_⟩
    · rw [hheld', hline, hk.line, hk.lost, hk.accepted, ← hheld]
      exact h.perm
    · rw [hheld', hline, hk.line, hk.accepted, ← hheld]
      exact h.order
    · rw [hk.dropped, hk.rejections, hk.lost]
      exact h.drops
  · have hold : line s (held s) = s.finished ++ m :: s.queue := by
      rw [hheld, hl.current]
      simp [line]
    refine ⟨honly, hl.accepted ▸ h.stamps, ?_, ?_, hl.full ▸ h.bound, ?_⟩
    · rw [hheld', hline, hl.line, hl.lost, hl.accepted]
      refine List.Perm.trans ?_ h.perm
      rw [hold, ← List.append_assoc]
      refine List.perm_append_comm.trans ?_
      rw [List.singleton_append, List.append_assoc s.finished (m :: s.queue), List.cons_append,
        List.append_assoc]
      exact List.perm_middle.symm
    · rw [hheld', hline, hl.line, hl.accepted]
      refine List.Sublist.trans ?_ h.order
      rw [hold]
      exact (List.Sublist.refl _).append (List.sublist_cons_self _ _)
    · rw [hl.dropped, hl.rejections, hl.lost, h.drops, List.length_append, List.length_singleton]
      omega

/-- **One step keeps the invariant.** -/
theorem step_inv {a : Act} (h : Inv d₀ s) (hhandled : Handled s a) (hstep : step s a = some s') :
    Inv d₀ s' := by
  cases a with
  | enqueue admission mappingInfo wait timedOut =>
    cases hstep
    exact h.enqueuePass admission mappingInfo wait timedOut
  | ensureProcessorStarted =>
    cases hstep
    obtain ⟨honly, hheld⟩ := h.only.ensureProcessorStarted
    have hsame : ∀ c, line (ensureProcessorStarted s) c = line s c ∧
        (ensureProcessorStarted s).accepted = s.accepted ∧
        (ensureProcessorStarted s).lost = s.lost ∧ (ensureProcessorStarted s).queue = s.queue ∧
        (ensureProcessorStarted s).dropped = s.dropped ∧
        (ensureProcessorStarted s).rejections = s.rejections := by
      intro c
      unfold ensureProcessorStarted
      split_ifs <;> exact ⟨rfl, rfl, rfl, rfl, rfl, rfl⟩
    obtain ⟨hline, haccepted, hlost, hqueue, hdropped, hrejections⟩ := hsame (held s)
    refine ⟨honly, haccepted ▸ h.stamps, ?_, ?_, hqueue ▸ h.bound, ?_⟩
    · rw [hheld, hline, hlost, haccepted]
      exact h.perm
    · rw [hheld, hline, haccepted]
      exact h.order
    · rw [hdropped, hrejections, hlost]
      exact h.drops
  | proc t e => exact h.procStep hhandled hstep

/-! ## Conservation -/

/-- Acceptance order. -/
def Before (m n : Message) : Prop := m.stamp < n.stamp

/-- The conservation law of a run that began with the drop counter at `d₀`. -/
structure Conserved (d₀ : ℕ) (s : State) : Prop where
  /-- Messages are numbered in the order of their acceptance. -/
  stamps : s.accepted.map Message.stamp = List.range s.accepted.length
  exactlyOne : ∀ m, s.finished.count m + s.lost.count m + (heldMessages s).count m +
    s.queue.count m = if m ∈ s.accepted then 1 else 0
  finished_order : s.finished.Pairwise Before
  finished_before : ∀ m ∈ s.finished, ∀ n ∈ heldMessages s ++ s.queue, Before m n
  one_held : (heldMessages s).length ≤ 1
  held_first : ∀ m ∈ heldMessages s, ∀ n ∈ s.queue, Before m n
  queue_order : s.queue.Pairwise Before
  bound : s.queue.length ≤ maxQueueSize
  drops : s.dropped = d₀ + s.rejections + s.lost.length

theorem Inv.accepted_pairwise (h : Inv d₀ s) : s.accepted.Pairwise Before := by
  have hr : (s.accepted.map Message.stamp).Pairwise (· < ·) := by
    rw [h.stamps]
    exact List.pairwise_lt_range
  rw [List.pairwise_map] at hr
  exact hr

theorem Inv.accepted_nodup (h : Inv d₀ s) : s.accepted.Nodup := by
  refine h.accepted_pairwise.imp ?_
  rintro m n hlt rfl
  exact Nat.lt_irrefl _ hlt

theorem Inv.conserved (h : Inv d₀ s) : Conserved d₀ s := by
  have hline := h.accepted_pairwise.sublist h.order
  rw [line, List.append_assoc, List.pairwise_append, List.pairwise_append] at hline
  obtain ⟨hfin, ⟨-, hqueue, hfirst⟩, hbefore⟩ := hline
  have hheld := h.only.heldMessages
  rw [← hheld] at hfirst hbefore
  refine ⟨h.stamps, fun m => ?_, hfin, hbefore, ?_, hfirst, hqueue, h.bound, h.drops⟩
  · have hcount := h.perm.count_eq m
    rw [line, List.count_append, List.count_append, List.count_append, ← hheld] at hcount
    have hone : s.accepted.count m = if m ∈ s.accepted then 1 else 0 := by
      split_ifs with hm
      · exact List.count_eq_one_of_mem h.accepted_nodup hm
      · exact List.count_eq_zero_of_not_mem hm
    omega
  · rw [hheld]
    cases held s with
    | none => exact Nat.zero_le 1
    | some m => exact le_rfl

/-- An exception that escapes before the message is sent leaves it in no place. -/
theorem handled_of_conserved {a : Act} (h : Inv d₀ s) (hstep : step s a = some s')
    (hconserved : Conserved d₀ s') : Handled s a := by
  rintro t cancelled rfl
  obtain ⟨honly, q, task, task', ha, hcor, rfl, hheld, hheld'⟩ := h.only.procStep hstep
  by_contra hpc
  rw [ha, Option.map_some, Option.some.injEq] at hpc
  cases hcur : task.current with
  | none => simp [coroutine, hcur] at hcor
  | some m =>
    have hescape : escape s task.pc m cancelled = (q, task') := by
      simp only [coroutine, hcur] at hcor
      split at hcor
      case h_6 => cases hcor
      all_goals
        rename_i hm
        cases hm
        exact Option.some.inj hcor
    rw [escape, if_neg hpc, if_neg hpc, Prod.mk.injEq] at hescape
    obtain ⟨rfl, rfl⟩ := hescape
    have hbefore := h.conserved.exactlyOne m
    have hafter := hconserved.exactlyOne m
    rw [h.only.heldMessages, hheld, hcur] at hbefore
    rw [honly.heldMessages, hheld'] at hafter
    simp at hbefore hafter
    split_ifs at hbefore hafter <;> omega

/-- **Conservation and order.** If no coroutine of an earlier start is unfinished, then, whatever
producers, connection and sends do between `start()` and the next `stop()`, every state reached obeys
the conservation law if and only if no exception escapes the handlers of the coroutine before a
message is sent. -/
theorem run_conserved (i : Start) (hfresh : i.Fresh) (acts : List Act) :
    Visited step (Conserved i.dropped) (started i) acts ↔
      AllSteps step Handled (started i) acts :=
  visited_iff_allSteps_of_breaks (fun _ _ _ h hg hs => step_inv h hg hs)
    (fun _ h => h.conserved) (fun _ _ _ h hs hc => handled_of_conserved h hs hc)
    (inv_started hfresh) acts

/-- A first start with a running event loop. -/
def firstStart : Start := ⟨[], none, true, 0, fun _ => false, 7, 2, 0⟩

/-- The connection is up at all three checks. -/
def checked : List Act :=
  [.proc 0 (.tick 1), .proc 0 (.link (.module false (some .absent))), .proc 0 (.tick 1),
    .proc 0 (.link (.module false (some .absent)))]

/-- Two messages, the first requeued after a connection error and then sent. -/
def requeueRun : List Act :=
  [.enqueue .admitted true false false, .enqueue .admitted false true false] ++ checked ++
    [.proc 0 (.sent (.error ⟨false, "link timeout"⟩) 1)] ++ checked ++
    [.proc 0 (.sent (.value true) 3), .proc 0 (.tick 3), .proc 0 (.tick 4)]

theorem run_conserved_requeueRun :
    Visited step (Conserved 7) (started firstStart) requeueRun ∧
      ∃ s, runActs step (started firstStart) requeueRun = some s ∧ s.finished = [⟨0, true⟩] ∧
        heldMessages s = [⟨1, false⟩] :=
  ⟨(run_conserved firstStart (by simp [Start.Fresh, firstStart]) requeueRun).mpr
    (allSteps_of_mem (by simp [requeueRun, checked, Handled]) _), _, rfl, rfl, rfl⟩

/-- One message whose send raises a `concurrent.futures.CancelledError`. -/
def cancelledSend : List Act :=
  [.enqueue .admitted false false false] ++ checked ++ [.proc 0 (.escaped true)]

theorem cancelledSend_vanishes :
    ∃ s, runActs step (started firstStart) cancelledSend = some s ∧ s.accepted = [⟨0, false⟩] ∧
      s.vanished = [⟨0, false⟩] ∧ ¬ Conserved 7 s := by
  refine ⟨_, rfl, rfl, rfl, fun h => ?_⟩
  have hone := h.exactlyOne ⟨0, false⟩
  revert hone
  decide

end MMRelay.Processor
