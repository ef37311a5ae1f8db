import MMRelay.Radio.Teardown

/-!
# Teardown timeouts are accounted for

The invariant of `Radio/Teardown.lean` and what follows from it for every run.

* `Locked`, **`locked_resolveStep`**: the worker and the caller exclude each other when they resolve;
* `Call.Ok`, **`ok_callerStep`**, **`ok_workerStep`**: the record, the timed-out flag and the done
  flag come in an order in which one side sees the other;
* `Effect`, `Inv`, **`inv_step`**: each entry of the table counts calls that are still pending;
* **`teardown_accounted`**: the accounting in every run.
-/

namespace MMRelay.Radio.Teardown

variable {w : Addresses} {t t' : Lifecycle} {c c' : Call}

/-! ## Resolving once -/

/-- Where the caller is in `_resolve_recorded_teardown_timeout_once`. -/
def CallerPc.place : CallerPc → Option Resolving
  | .resolving r => some r
  | _ => none

/-- Where the worker is there. -/
def WorkerPc.place : WorkerPc → Option Resolving
  | .resolving r => some r
  | _ => none

def Call.place (c : Call) : Side → Option Resolving
  | .caller => c.caller.place
  | .worker => c.worker.place

/-- What a thread at this place knows of the lock and the events. -/
def Call.Knows (c : Call) (side : Side) : Option Resolving → Prop
  | none | some .entry => c.lock ≠ some side
  | some .acquire => c.lock ≠ some side ∧ c.recordedEvent = true
  | some .check => c.lock = some side ∧ c.recordedEvent = true ∧
      c.resolutions = if c.resolvedEvent then 1 else 0
  | some .call => c.lock = some side ∧ c.recordedEvent = true ∧ c.resolvedEvent = false ∧
      c.resolutions = 0
  | some .mark => c.lock = some side ∧ c.recordedEvent = true ∧ c.resolutions = 1
  | some .release => c.lock = some side ∧ c.recordedEvent = true ∧ c.resolvedEvent = true ∧
      c.resolutions = 1

/-- The threads at these places share the lock and the events. -/
structure Locked (c : Call) (place : Side → Option Resolving) : Prop where
  knows : ∀ side, c.Knows side (place side)
  free : c.lock = none → c.resolutions = if c.resolvedEvent then 1 else 0
  recorded : c.resolutions ≠ 0 → c.recordedEvent = true

variable {place : Side → Option Resolving} {side side' : Side} {r : Resolving}
  {next p : Option Resolving}

theorem Call.Knows.other (h : c.Knows side p) (hlock : c.lock ≠ some side)
    (hlock' : c'.lock ≠ some side) (hrecorded : c'.recordedEvent = c.recordedEvent) :
    c'.Knows side p := by
  cases p with
  | none => exact hlock'
  | some r =>
    cases r with
    | entry => exact hlock'
    | acquire => exact ⟨hlock', hrecorded.trans h.2⟩
    | check | call | mark | release => exact absurd h.1 hlock

theorem Locked.move (h : Locked c place) (hlock : ∀ side' ≠ side, c.lock ≠ some side')
    (hlock' : ∀ side' ≠ side, c'.lock ≠ some side')
    (hevent : c'.recordedEvent = c.recordedEvent) (hknows : c'.Knows side next)
    (hfree : c'.lock = none → c'.resolutions = if c'.resolvedEvent then 1 else 0)
    (hrecorded : c'.resolutions ≠ 0 → c'.recordedEvent = true) :
    Locked c' (Function.update place side next) := by
  refine ⟨fun side' => ?_, hfree, hrecorded⟩
  by_cases heq : side' = side
  · subst heq
    rw [Function.update_self]
    exact hknows
  · rw [Function.update_of_ne heq]
    exact (h.knows side').other (hlock side' heq) (hlock' side' heq) hevent

theorem Locked.congr (h : Locked c place) (hlock : c'.lock = c.lock)
    (hresolved : c'.resolvedEvent = c.resolvedEvent) (hres : c'.resolutions = c.resolutions)
    (hrecorded : c.recordedEvent = true → c'.recordedEvent = true) : Locked c' place := by
  refine ⟨fun side => ?_, fun hnone => ?_, fun hne => hrecorded (h.recorded ?_)⟩
  · have hknows := h.knows side
    cases hp : place side with
    | none =>
      rw [hp] at hknows
      show c'.lock ≠ some side
      rw [hlock]
      exact hknows
    | some r =>
      rw [hp] at hknows
      cases r with
      | entry =>
        show c'.lock ≠ some side
        rw [hlock]
        exact hknows
      | acquire => exact ⟨hlock ▸ hknows.1, hrecorded hknows.2⟩
      | check => exact ⟨hlock.trans hknows.1, hrecorded hknows.2.1, by
          rw [hres, hresolved]
          exact hknows.2.2⟩
      | call => exact ⟨hlock.trans hknows.1, hrecorded hknows.2.1, hresolved.trans hknows.2.2.1,
          hres.trans hknows.2.2.2⟩
      | mark => exact ⟨hlock.trans hknows.1, hrecorded hknows.2.1, hres.trans hknows.2.2⟩
      | release => exact ⟨hlock.trans hknows.1, hrecorded hknows.2.1,
          hresolved.trans hknows.2.2.1, hres.trans hknows.2.2.2⟩
  · rw [hres, hresolved]
    exact h.free (hlock ▸ hnone)
  · rw [← hres]
    exact hne

theorem Locked.advance (h : Locked c place) (hknows : c.Knows side next) :
    Locked c (Function.update place side next) := by
  refine ⟨fun side' => ?_, h.free, h.recorded⟩
  by_cases heq : side' = side
  · subst heq
    rw [Function.update_self]
    exact hknows
  · rw [Function.update_of_ne heq]
    exact h.knows side'

theorem only_lock (h : c.lock = some side) : ∀ side' ≠ side, c.lock ≠ some side' := by
  intro side' hne heq
  rw [h] at heq
  exact hne (Option.some.inj heq).symm

/-- **A step of one thread** in the procedure. -/
theorem locked_resolveStep (h : Locked c place) (hr : place side = some r)
    (hstep : resolveStep w t c side r = some (t', c', next)) :
    Locked c' (Function.update place side next) := by
  have hknows := h.knows side
  rw [hr] at hknows
  cases r with
  | entry =>
    simp only [resolveStep, Option.some.injEq, Prod.mk.injEq] at hstep
    obtain ⟨-, rfl, rfl⟩ := hstep
    refine h.advance ?_
    split_ifs with hrecorded
    · exact ⟨hknows, (Bool.and_eq_true_iff.mp hrecorded).1⟩
    · exact hknows
  | acquire =>
    simp only [resolveStep, Option.ite_none_right_eq_some, Option.some.injEq,
      Prod.mk.injEq] at hstep
    obtain ⟨hfree, -, rfl, rfl⟩ := hstep
    refine h.move (fun side' _ => ?_) (only_lock rfl) rfl ⟨rfl, hknows.2, h.free hfree⟩
      (fun hnone => ?_) h.recorded
    · rw [hfree]
      exact (Option.some_ne_none side').symm
    · cases hnone
  | check =>
    simp only [resolveStep, Option.some.injEq, Prod.mk.injEq] at hstep
    obtain ⟨-, rfl, rfl⟩ := hstep
    obtain ⟨hlock, hrecorded, honce⟩ := hknows
    refine h.advance ?_
    cases hresolved : c.resolvedEvent with
    | true =>
      rw [hresolved] at honce
      exact ⟨hlock, hrecorded, hresolved, honce⟩
    | false =>
      rw [hresolved] at honce
      exact ⟨hlock, hrecorded, hresolved, honce⟩
  | call =>
    simp only [resolveStep, Option.map_eq_some_iff, Prod.mk.injEq] at hstep
    obtain ⟨o, -, -, rfl, rfl⟩ := hstep
    obtain ⟨hlock, hrecorded, -, hzero⟩ := hknows
    refine h.move (only_lock hlock) (only_lock hlock) rfl ⟨hlock, hrecorded, ?_⟩ (fun hnone => ?_)
      fun _ => hrecorded
    · show c.resolutions + 1 = 1
      rw [hzero]
    · rw [show c.lock = none from hnone] at hlock
      cases hlock
  | mark =>
    simp only [resolveStep, Option.some.injEq, Prod.mk.injEq] at hstep
    obtain ⟨-, rfl, rfl⟩ := hstep
    obtain ⟨hlock, hrecorded, hone⟩ := hknows
    refine h.move (only_lock hlock) (only_lock hlock) rfl ⟨hlock, hrecorded, rfl, hone⟩
      (fun hnone => ?_) fun _ => hrecorded
    rw [show c.lock = none from hnone] at hlock
    cases hlock
  | release =>
    simp only [resolveStep, Option.some.injEq, Prod.mk.injEq] at hstep
    obtain ⟨-, rfl, rfl⟩ := hstep
    obtain ⟨hlock, hrecorded, hresolved, hone⟩ := hknows
    refine h.move (only_lock hlock) (fun side' _ => (Option.some_ne_none side').symm) rfl
      (Option.some_ne_none side).symm (fun _ => ?_) fun _ => hrecorded
    show c.resolutions = if c.resolvedEvent then 1 else 0
    rw [hone, hresolved]
    rfl

theorem resolveStep_only (hstep : resolveStep w t c side r = some (t', c', next)) :
    ∃ lock resolvedEvent resolution resolutions, c' =
      { c with lock := lock, resolvedEvent := resolvedEvent, resolution := resolution,
               resolutions := resolutions } := by
  cases r with
  | entry | check | mark | release =>
    simp only [resolveStep, Option.some.injEq, Prod.mk.injEq] at hstep
    obtain ⟨-, rfl, -⟩ := hstep
    exact ⟨_, _, _, _, rfl⟩
  | acquire =>
    simp only [resolveStep, Option.ite_none_right_eq_some, Option.some.injEq,
      Prod.mk.injEq] at hstep
    obtain ⟨-, -, rfl, -⟩ := hstep
    exact ⟨_, _, _, _, rfl⟩
  | call =>
    simp only [resolveStep, Option.map_eq_some_iff, Prod.mk.injEq] at hstep
    obtain ⟨o, -, -, rfl, -⟩ := hstep
    exact ⟨_, _, _, _, rfl⟩

theorem isSome_owner (h : (c.key w).isSome = true) : c.owner.isSome = true := by
  unfold Call.key at h
  cases ho : c.owner with
  | none =>
    rw [ho] at h
    cases h
  | some o => rfl

/-- A thread that leaves the procedure leaves nothing to be resolved. -/
theorem resolved_of_end (h : Locked c place) (hr : place side = some r)
    (hstep : resolveStep w t c side r = some (t', c', none))
    (hseen : c.counted = true → c.recordedEvent = true)
    (hkey : c.counted = true → (c.key w).isSome = true) : c'.counted = true →
    c'.resolutions = 1 := by
  have hknows := h.knows side
  rw [hr] at hknows
  cases r with
  | entry =>
    simp only [resolveStep, Option.some.injEq, Prod.mk.injEq] at hstep
    obtain ⟨-, rfl, hnone⟩ := hstep
    intro hcounted
    rw [hseen hcounted, isSome_owner (hkey hcounted)] at hnone
    cases hnone
  | acquire =>
    simp only [resolveStep, Option.ite_none_right_eq_some, Option.some.injEq,
      Prod.mk.injEq] at hstep
    obtain ⟨-, -, -, hnone⟩ := hstep
    cases hnone
  | check | mark =>
    simp only [resolveStep, Option.some.injEq, Prod.mk.injEq] at hstep
    obtain ⟨-, -, hnone⟩ := hstep
    cases hnone
  | call =>
    simp only [resolveStep, Option.map_eq_some_iff, Prod.mk.injEq] at hstep
    obtain ⟨o, -, -, -, hnone⟩ := hstep
    cases hnone
  | release =>
    simp only [resolveStep, Option.some.injEq, Prod.mk.injEq] at hstep
    obtain ⟨-, rfl, -⟩ := hstep
    exact fun _ => hknows.2.2.2

/-! ## The order of the events -/

/-- The caller has signalled its timeout, after the record. -/
def Call.Signalled (c : Call) : Prop :=
  c.timedOutEvent = true ∧ (c.counted = true → c.recordedEvent = true)

/-- What the caller knows of the events. -/
def Call.CallerKnows (c : Call) : CallerPc → Prop
  | .wait | .blocked | .record =>
    c.counted = false ∧ c.recordedEvent = false ∧ c.timedOutEvent = false
  | .flag n => c.recordedEvent = false ∧ c.timedOutEvent = false ∧ (c.counted = true ↔ 0 < n)
  | .signal => c.timedOutEvent = false ∧ (c.counted = true → c.recordedEvent = true)
  | .recheck | .resolving _ => c.Signalled
  | .returned => c.Signalled ∨ c.timedOutEvent = false ∧ c.counted = false

/-- What the worker knows of them. -/
def Call.WorkerKnows (c : Call) : WorkerPc → Prop
  | .action | .done => c.doneEvent = false
  | .check | .finished => c.doneEvent = true
  | .resolving _ => c.doneEvent = true ∧ c.timedOutEvent = true

theorem Call.WorkerKnows.signalled {pc : WorkerPc} (h : c.WorkerKnows pc) :
    { c with caller := .recheck, timedOutEvent := true }.WorkerKnows pc := by
  cases pc with
  | action | done | check | finished => exact h
  | resolving => exact ⟨h.1, rfl⟩

/-- **The invariant of a call.** -/
structure Call.Ok (w : Addresses) (c : Call) : Prop where
  locked : Locked c c.place
  caller : c.CallerKnows c.caller
  worker : c.WorkerKnows c.worker
  event : c.recordedEvent = true → c.counted = true
  key : c.counted = true → (c.key w).isSome = true
  settled : c.caller = .returned → c.worker = .finished → c.counted = true → c.resolutions = 1

/-- Once the timeout is signalled, the record can be seen. -/
theorem Call.Ok.seen (h : c.Ok w) (htimed : c.timedOutEvent = true) (hcounted : c.counted = true) :
    c.recordedEvent = true := by
  have hcaller := h.caller
  cases hpc : c.caller with
  | wait | blocked | record =>
    rw [hpc] at hcaller
    have hno := hcaller.2.2
    rw [htimed] at hno
    cases hno
  | flag n =>
    rw [hpc] at hcaller
    have hno := hcaller.2.1
    rw [htimed] at hno
    cases hno
  | signal =>
    rw [hpc] at hcaller
    exact hcaller.2 hcounted
  | recheck | resolving =>
    rw [hpc] at hcaller
    exact hcaller.2 hcounted
  | returned =>
    rw [hpc] at hcaller
    rcases hcaller with hcaller | ⟨hno, -⟩
    · exact hcaller.2 hcounted
    · rw [htimed] at hno
      cases hno

theorem place_caller (c : Call) (pc : CallerPc) :
    { c with caller := pc }.place = Function.update c.place .caller pc.place := by
  funext side
  cases side with
  | caller => rw [Function.update_self]; rfl
  | worker => rw [Function.update_of_ne (by decide)]; rfl

theorem place_worker (c : Call) (pc : WorkerPc) :
    { c with worker := pc }.place = Function.update c.place .worker pc.place := by
  funext side
  cases side with
  | caller => rw [Function.update_of_ne (by decide)]; rfl
  | worker => rw [Function.update_self]; rfl

/-! ## The table -/

/-- `_ble_teardown_unresolved_by_generation.get(key, 0)`. -/
def Lifecycle.count (t : Lifecycle) (k : String × ℤ) : ℤ := (dictGet? t.unresolved k).getD 0

/-- No entry counts nothing. -/
def Lifecycle.Positive (t : Lifecycle) : Prop := ∀ k n, dictGet? t.unresolved k = some n → 1 ≤ n

theorem Lifecycle.Positive.count_nonneg (h : t.Positive) (k : String × ℤ) : 0 ≤ t.count k := by
  unfold Lifecycle.count
  cases hk : dictGet? t.unresolved k with
  | none => exact le_rfl
  | some n =>
    have hpos := h k n hk
    show 0 ≤ n
    omega

/-- A table with another count for one key. -/
structure Lifecycle.Sets (t : Lifecycle) (k : String × ℤ) (n : ℤ) (t' : Lifecycle) : Prop where
  count_self : t'.count k = n
  count_other : ∀ k' ≠ k, t'.count k' = t.count k'
  positive : t.Positive → t'.Positive

theorem sets_dictSet {k : String × ℤ} {n : ℤ} (hn : 1 ≤ n) :
    t.Sets k n { t with unresolved := dictSet t.unresolved k n } := by
  refine ⟨?_, fun k' hne => ?_, fun hpos k' m hm => ?_⟩
  · show (dictGet? (dictSet t.unresolved k n) k).getD 0 = n
    rw [dictGet?_dictSet, if_pos rfl]
    rfl
  · show (dictGet? (dictSet t.unresolved k n) k').getD 0 = _
    rw [dictGet?_dictSet, if_neg hne]
    rfl
  · change dictGet? (dictSet t.unresolved k n) k' = some m at hm
    rw [dictGet?_dictSet] at hm
    by_cases hk : k' = k
    · rw [if_pos hk] at hm
      rw [← Option.some.inj hm]
      exact hn
    · rw [if_neg hk] at hm
      exact hpos k' m hm

theorem sets_dictPop {k : String × ℤ} :
    t.Sets k 0 { t with unresolved := dictPop t.unresolved k } := by
  refine ⟨?_, fun k' hne => ?_, fun hpos k' m hm => ?_⟩
  · show (dictGet? (dictPop t.unresolved k) k).getD 0 = 0
    rw [dictGet?_dictPop, if_pos rfl]
    rfl
  · show (dictGet? (dictPop t.unresolved k) k').getD 0 = _
    rw [dictGet?_dictPop, if_neg hne]
    rfl
  · change dictGet? (dictPop t.unresolved k) k' = some m at hm
    rw [dictGet?_dictPop] at hm
    by_cases hk : k' = k
    · rw [if_pos hk] at hm
      cases hm
    · rw [if_neg hk] at hm
      exact hpos k' m hm

variable {o : String × ℤ}

theorem owner_pos (ho : c.owner = some o) : 0 < o.2 := by
  unfold Call.owner at ho
  cases ha : c.bleAddress with
  | none =>
    rw [ha] at ho
    cases ho
  | some a =>
    cases hg : c.bleGeneration with
    | none =>
      rw [ha, hg] at ho
      cases ho
    | some g =>
      rw [ha, hg] at ho
      obtain ⟨hand, heq⟩ := (Option.ite_none_right_eq_some.mp ho)
      rw [← Option.some.inj heq]
      exact hand.2

theorem key_of_owner (ho : c.owner = some o) : c.key w =
    if w.sanitizeBleAddress o.1 = "" then none else some (w.sanitizeBleAddress o.1, o.2) := by
  unfold Call.key
  rw [ho, Option.map_some]
  by_cases h : w.sanitizeBleAddress o.1 = ""
  · rw [if_pos h]
    simp [h]
  · rw [if_neg h]
    simp [h]

theorem record_cases (ho : c.owner = some o) (hpos : t.Positive) :
    (∃ k, c.key w = some k ∧ 0 < (recordBleTeardownTimeout w o.1 o.2 t).1 ∧
      t.Sets k (t.count k + 1) (recordBleTeardownTimeout w o.1 o.2 t).2) ∨
    c.key w = none ∧ recordBleTeardownTimeout w o.1 o.2 t = (0, t) := by
  have hgen := owner_pos ho
  rw [key_of_owner ho]
  unfold recordBleTeardownTimeout
  by_cases h : w.sanitizeBleAddress o.1 = ""
  · rw [if_pos h]
    simp only [h, true_or, if_true]
    exact .inr ⟨trivial, trivial⟩
  · rw [if_neg h]
    have hno : ¬ (w.sanitizeBleAddress o.1 = "" ∨ o.2 ≤ 0) := by
      rintro (hbad | hbad)
      · exact h hbad
      · omega
    simp only [if_neg hno]
    have hcount := hpos.count_nonneg (w.sanitizeBleAddress o.1, o.2)
    refine .inl ⟨_, rfl, ?_, sets_dictSet ?_⟩
    · show 0 < t.count _ + 1
      omega
    · omega

theorem resolve_cases (ho : c.owner = some o) :
    (∃ k n, c.key w = some k ∧ t.Sets k n (resolveBleTeardownTimeout w o.1 o.2 t).2 ∧
      (n = t.count k - 1 ∨ n = 0 ∧ t.count k ≤ 1)) ∨
    c.key w = none ∧ (resolveBleTeardownTimeout w o.1 o.2 t).2 = t := by
  have hgen := owner_pos ho
  rw [key_of_owner ho]
  unfold resolveBleTeardownTimeout
  by_cases h : w.sanitizeBleAddress o.1 = ""
  · rw [if_pos h]
    simp only [h, true_or, if_true]
    exact .inr ⟨trivial, trivial⟩
  · rw [if_neg h]
    have hno : ¬ (w.sanitizeBleAddress o.1 = "" ∨ o.2 ≤ 0) := by
      rintro (hbad | hbad)
      · exact h hbad
      · omega
    simp only [if_neg hno]
    by_cases hle : t.count (w.sanitizeBleAddress o.1, o.2) ≤ 1
    · refine .inl ⟨_, 0, rfl, ?_, .inr ⟨rfl, hle⟩⟩
      simp only [show (dictGet? t.unresolved (w.sanitizeBleAddress o.1, o.2)).getD 0 ≤ 1 from hle,
        if_true]
      exact sets_dictPop
    · refine .inl ⟨_, _, rfl, ?_, .inl rfl⟩
      simp only [show ¬ (dictGet? t.unresolved (w.sanitizeBleAddress o.1, o.2)).getD 0 ≤ 1 from hle,
        if_false]
      exact sets_dictSet (by
        show 1 ≤ t.count (w.sanitizeBleAddress o.1, o.2) - 1
        omega)

/-! ## The steps of a call -/

theorem place_of_next (next : Option Resolving) :
    ((next.map CallerPc.resolving).getD .returned).place = next := by
  cases next <;> rfl

theorem place_of_next_worker (next : Option Resolving) :
    ((next.map WorkerPc.resolving).getD .finished).place = next := by
  cases next <;> rfl

theorem place_caller_outside {pc : CallerPc} (hnone : c.caller.place = none)
    (hnone' : pc.place = none) : { c with caller := pc }.place = c.place := by
  rw [place_caller, hnone', ← hnone]
  exact Function.update_eq_self Side.caller c.place

section CallerSteps

variable {expires : Bool}

theorem ok_caller_wait (h : c.Ok w) (hpc : c.caller = .wait)
    (hstep : callerStep w t c expires .wait = some (t', c')) : c'.Ok w := by
  have hcaller := h.caller
  rw [hpc] at hcaller
  simp only [callerStep, Option.some.injEq, Prod.mk.injEq] at hstep
  obtain ⟨-, rfl⟩ := hstep
  refine ⟨?_, ?_, h.worker, h.event, h.key, fun _ _ hcounted => ?_⟩
  · rw [place_caller_outside (by rw [hpc]; rfl) (by split_ifs <;> rfl)]
    exact h.locked.congr rfl rfl rfl id
  · show c.CallerKnows (if c.doneEvent = true then .returned else .blocked)
    split_ifs
    · exact .inr ⟨hcaller.2.2, hcaller.1⟩
    · exact hcaller
  · exact absurd (hcaller.1.symm.trans hcounted) Bool.false_ne_true

theorem ok_caller_blocked (h : c.Ok w) (hpc : c.caller = .blocked)
    (hstep : callerStep w t c expires .blocked = some (t', c')) : c'.Ok w := by
  have hcaller := h.caller
  rw [hpc] at hcaller
  have hstep' : ∃ pc, (pc = .record ∨ pc = .returned) ∧ c' = { c with caller := pc } := by
    simp only [callerStep] at hstep
    split_ifs at hstep
    · cases hstep
      exact ⟨_, .inl rfl, rfl⟩
    · cases hstep
      exact ⟨_, .inr rfl, rfl⟩
  obtain ⟨pc, hpc', rfl⟩ := hstep'
  refine ⟨?_, ?_, h.worker, h.event, h.key, fun _ _ hcounted => ?_⟩
  · rw [place_caller_outside (by rw [hpc]; rfl) (by rcases hpc' with rfl | rfl <;> rfl)]
    exact h.locked.congr rfl rfl rfl id
  · rcases hpc' with rfl | rfl
    · exact hcaller
    · exact .inr ⟨hcaller.2.2, hcaller.1⟩
  · exact absurd (hcaller.1.symm.trans hcounted) Bool.false_ne_true

theorem ok_caller_record (h : c.Ok w) (hpos : t.Positive) (hpc : c.caller = .record)
    (hstep : callerStep w t c expires .record = some (t', c')) : c'.Ok w := by
  have hcaller := h.caller
  rw [hpc] at hcaller
  cases ho : c.owner with
  | none =>
    simp only [callerStep, ho, Option.some.injEq, Prod.mk.injEq] at hstep
    obtain ⟨-, rfl⟩ := hstep
    refine ⟨?_, ⟨hcaller.2.2, fun hcounted => ?_⟩, h.worker, h.event, h.key, fun hret => ?_⟩
    · rw [place_caller_outside (by rw [hpc]; rfl) rfl]
      exact h.locked.congr rfl rfl rfl id
    · exact absurd (hcaller.1.symm.trans hcounted) Bool.false_ne_true
    · cases hret
  | some o =>
    simp only [callerStep, ho, Option.some.injEq, Prod.mk.injEq] at hstep
    obtain ⟨-, rfl⟩ := hstep
    have heq : { c with caller := .flag (recordBleTeardownTimeout w o.1 o.2 t).1 }.place =
        c.place := place_caller_outside (by rw [hpc]; rfl) rfl
    refine ⟨?_, ⟨hcaller.2.1, hcaller.2.2, ?_⟩, h.worker, fun hrec => ?_, id, fun hret => ?_⟩
    · exact heq ▸ h.locked.congr rfl rfl rfl id
    · show (c.key w).isSome = true ↔ 0 < (recordBleTeardownTimeout w o.1 o.2 t).1
      rcases record_cases ho hpos with ⟨k, hk, hcount, -⟩ | ⟨hnone, hzero⟩
      · rw [hk]
        exact iff_of_true rfl hcount
      · rw [hnone, hzero]
        exact iff_of_false Bool.false_ne_true (lt_irrefl 0)
    · exact absurd (hcaller.2.1.symm.trans hrec) Bool.false_ne_true
    · cases hret

theorem ok_caller_flag {n : ℤ} (h : c.Ok w) (hpc : c.caller = .flag n)
    (hstep : callerStep w t c expires (.flag n) = some (t', c')) : c'.Ok w := by
  have hcaller := h.caller
  rw [hpc] at hcaller
  simp only [callerStep, Option.some.injEq, Prod.mk.injEq] at hstep
  obtain ⟨-, rfl⟩ := hstep
  have heq : { c with caller := .signal }.place = c.place :=
    place_caller_outside (by rw [hpc]; rfl) rfl
  refine ⟨?_, ⟨hcaller.2.1, fun hcounted => ?_⟩, h.worker, fun hrec => ?_, h.key, fun hret => ?_⟩
  · exact heq ▸ h.locked.congr rfl rfl rfl fun hrec => by simp [hrec]
  · simp [hcaller.2.2.mp hcounted]
  · change (c.recordedEvent || decide (0 < n)) = true at hrec
    rw [hcaller.1, Bool.false_or, decide_eq_true_eq] at hrec
    exact hcaller.2.2.mpr hrec
  · cases hret

theorem ok_caller_signal (h : c.Ok w) (hpc : c.caller = .signal)
    (hstep : callerStep w t c expires .signal = some (t', c')) : c'.Ok w := by
  have hcaller := h.caller
  rw [hpc] at hcaller
  simp only [callerStep, Option.some.injEq, Prod.mk.injEq] at hstep
  obtain ⟨-, rfl⟩ := hstep
  have heq : { c with caller := .recheck }.place = c.place :=
    place_caller_outside (by rw [hpc]; rfl) rfl
  refine ⟨?_, ⟨rfl, hcaller.2⟩, h.worker.signalled, h.event, h.key, fun hret => ?_⟩
  · exact heq ▸ h.locked.congr rfl rfl rfl id
  · cases hret

theorem ok_caller_recheck (h : c.Ok w) (hpc : c.caller = .recheck)
    (hstep : callerStep w t c expires .recheck = some (t', c')) : c'.Ok w := by
  have hcaller := h.caller
  rw [hpc] at hcaller
  simp only [callerStep, Option.some.injEq, Prod.mk.injEq] at hstep
  obtain ⟨-, rfl⟩ := hstep
  have hfree : c.lock ≠ some Side.caller := by
    have hknows := h.locked.knows .caller
    rw [show c.place .caller = none by simp [Call.place, hpc, CallerPc.place]] at hknows
    exact hknows
  refine ⟨?_, ?_, h.worker, h.event, h.key, fun hret hfinished => ?_⟩
  · rw [place_caller]
    refine (h.locked.advance ?_).congr rfl rfl rfl id
    split_ifs <;> exact hfree
  · show c.CallerKnows (if c.doneEvent = true then .resolving .entry else .returned)
    split_ifs
    · exact hcaller
    · exact .inl hcaller
  · -- a caller that returns here has not seen the worker end
    change (if c.doneEvent = true then CallerPc.resolving .entry else .returned) = .returned
      at hret
    change c.worker = .finished at hfinished
    have hworker := h.worker
    rw [hfinished] at hworker
    rw [if_pos (show c.doneEvent = true from hworker)] at hret
    cases hret

theorem ok_caller_resolving {r : Resolving} (h : c.Ok w) (hpc : c.caller = .resolving r)
    (hstep : callerStep w t c expires (.resolving r) = some (t', c')) : c'.Ok w := by
  have hcaller := h.caller
  rw [hpc] at hcaller
  simp only [callerStep, Option.map_eq_some_iff, Prod.mk.injEq] at hstep
  obtain ⟨⟨t₁, c₁, next⟩, hres, -, rfl⟩ := hstep
  have hr : c.place .caller = some r := by simp [Call.place, hpc, CallerPc.place]
  have hnext := locked_resolveStep h.locked hr hres
  have hend : next = none → c₁.counted = true → c₁.resolutions = 1 := by
    rintro rfl
    exact resolved_of_end h.locked hr hres hcaller.2 h.key
  obtain ⟨lock, resolvedEvent, resolution, resolutions, rfl⟩ := resolveStep_only hres
  refine ⟨?_, ?_, h.worker, h.event, h.key, fun hret _ hcounted => ?_⟩
  · rw [place_caller, place_of_next]
    exact hnext.congr rfl rfl rfl id
  · cases next with
    | none => exact .inl hcaller
    | some r' => exact hcaller
  · cases next with
    | none => exact hend rfl hcounted
    | some r' => cases hret

/-- **The caller** keeps the invariant. -/
theorem ok_callerStep (h : c.Ok w) (hpos : t.Positive)
    (hstep : callerStep w t c expires c.caller = some (t', c')) : c'.Ok w := by
  cases hpc : c.caller with
  | wait => exact ok_caller_wait h hpc (hpc ▸ hstep)
  | blocked => exact ok_caller_blocked h hpc (hpc ▸ hstep)
  | record => exact ok_caller_record h hpos hpc (hpc ▸ hstep)
  | flag n => exact ok_caller_flag h hpc (hpc ▸ hstep)
  | signal => exact ok_caller_signal h hpc (hpc ▸ hstep)
  | recheck => exact ok_caller_recheck h hpc (hpc ▸ hstep)
  | resolving r => exact ok_caller_resolving h hpc (hpc ▸ hstep)
  | returned =>
    rw [hpc] at hstep
    cases hstep

end CallerSteps

/-- **The worker** keeps it. -/
theorem ok_workerStep (h : c.Ok w) (hstep : workerStep w t c c.worker = some (t', c')) :
    c'.Ok w := by
  obtain ⟨hlocked, hcaller, hworker, hevent, hkey, hsettled⟩ := h
  have hseen : c.timedOutEvent = true → c.counted = true → c.recordedEvent = true :=
    Call.Ok.seen ⟨hlocked, hcaller, hworker, hevent, hkey, hsettled⟩
  have hplace (pc : WorkerPc) (hnone : c.worker.place = none) (hnone' : pc.place = none) :
      { c with worker := pc }.place = c.place := by
    rw [place_worker, hnone', ← hnone]
    exact Function.update_eq_self Side.worker c.place
  cases hpc : c.worker with
  | action =>
    rw [hpc] at hworker hstep
    simp only [workerStep, Option.some.injEq, Prod.mk.injEq] at hstep
    obtain ⟨-, rfl⟩ := hstep
    refine ⟨?_, hcaller, hworker, hevent, hkey, fun _ hfinished => ?_⟩
    · rw [hplace .done (by rw [hpc]; rfl) rfl]
      exact hlocked.congr rfl rfl rfl id
    · cases hfinished
  | done =>
    rw [hpc] at hworker hstep
    simp only [workerStep, Option.some.injEq, Prod.mk.injEq] at hstep
    obtain ⟨-, rfl⟩ := hstep
    refine ⟨?_, hcaller, rfl, hevent, hkey, fun _ hfinished => ?_⟩
    · have heq := hplace .check (by rw [hpc]; rfl) rfl
      exact heq ▸ hlocked.congr rfl rfl rfl id
    · cases hfinished
  | check =>
    rw [hpc] at hworker hstep
    simp only [workerStep, Option.some.injEq, Prod.mk.injEq] at hstep
    obtain ⟨-, rfl⟩ := hstep
    have hfree : c.lock ≠ some Side.worker := by
      have hknows := hlocked.knows .worker
      rw [show c.place .worker = none by simp [Call.place, hpc, WorkerPc.place]] at hknows
      exact hknows
    refine ⟨?_, hcaller, ?_, hevent, hkey, fun hret hfinished hcounted => ?_⟩
    · rw [place_worker]
      refine (hlocked.advance ?_).congr rfl rfl rfl id
      split_ifs <;> exact hfree
    · show c.WorkerKnows (if c.timedOutEvent = true then .resolving .entry else .finished)
      split_ifs with htimed
      · exact ⟨hworker, htimed⟩
      · exact hworker
    · -- the worker sees no timeout, so the caller that returned has recorded none
      change (if c.timedOutEvent = true then WorkerPc.resolving .entry else .finished) = .finished
        at hfinished
      change c.caller = .returned at hret
      rw [hret] at hcaller
      rcases hcaller with hsignalled | ⟨-, hno⟩
      · rw [if_pos hsignalled.1] at hfinished
        cases hfinished
      · exact absurd (hno.symm.trans hcounted) Bool.false_ne_true
  | resolving r =>
    rw [hpc] at hworker hstep
    simp only [workerStep, Option.map_eq_some_iff, Prod.mk.injEq] at hstep
    obtain ⟨⟨t₁, c₁, next⟩, hres, -, rfl⟩ := hstep
    have hr : c.place .worker = some r := by simp [Call.place, hpc, WorkerPc.place]
    have hnext := locked_resolveStep hlocked hr hres
    have hend : next = none → c₁.counted = true → c₁.resolutions = 1 := by
      rintro rfl
      exact resolved_of_end hlocked hr hres (hseen hworker.2) hkey
    obtain ⟨lock, resolvedEvent, resolution, resolutions, rfl⟩ := resolveStep_only hres
    refine ⟨?_, hcaller, ?_, hevent, hkey, fun _ hfinished hcounted => ?_⟩
    · rw [place_worker, place_of_next_worker]
      exact hnext.congr rfl rfl rfl id
    · cases next with
      | none => exact hworker.1
      | some r' => exact hworker
    · cases next with
      | none => exact hend rfl hcounted
      | some r' => cases hfinished
  | finished =>
    rw [hpc] at hstep
    cases hstep

/-! ## What a step does to the table -/

/-- The entry of the call is counted in the table and not resolved. -/
def Call.pending (w : Addresses) (k : String × ℤ) (c : Call) : Bool :=
  c.counted && decide (c.resolutions = 0) && decide (c.key w = some k)

/-- **The effect of a step.** -/
inductive Effect (w : Addresses) (t : Lifecycle) (c : Call) (t' : Lifecycle) (c' : Call) : Prop
  | silent (ht : t' = t) (hc : ∀ k, c'.pending w k = c.pending w k)
  | record (k : String × ℤ) (ht : t.Sets k (t.count k + 1) t')
      (hother : ∀ k' ≠ k, c'.pending w k' = c.pending w k') (hc : c.pending w k = false)
      (hc' : c'.pending w k = true)
  | resolve (k : String × ℤ) (n : ℤ) (ht : t.Sets k n t')
      (hn : n = t.count k - 1 ∨ n = 0 ∧ t.count k ≤ 1)
      (hother : ∀ k' ≠ k, c'.pending w k' = c.pending w k') (hc : c.pending w k = true)
      (hc' : c'.pending w k = false)

theorem pending_of_counted (hcounted : c.counted = true) (hzero : c.resolutions = 0)
    (k : String × ℤ) : c.pending w k = decide (c.key w = some k) := by
  rw [Call.pending, hcounted, hzero]
  rfl

/-- A step inside the procedure resolves a pending entry, or leaves the table alone. -/
theorem effect_resolveStep (h : c.Ok w) (hr : c.place side = some r)
    (hstep : resolveStep w t c side r = some (t', c', next)) : Effect w t c t' c' := by
  have hknows := h.locked.knows side
  rw [hr] at hknows
  cases r with
  | entry | check | mark | release =>
    simp only [resolveStep, Option.some.injEq, Prod.mk.injEq] at hstep
    obtain ⟨rfl, rfl, -⟩ := hstep
    exact .silent rfl fun _ => rfl
  | acquire =>
    simp only [resolveStep, Option.ite_none_right_eq_some, Option.some.injEq,
      Prod.mk.injEq] at hstep
    obtain ⟨-, rfl, rfl, -⟩ := hstep
    exact .silent rfl fun _ => rfl
  | call =>
    simp only [resolveStep, Option.map_eq_some_iff, Prod.mk.injEq] at hstep
    obtain ⟨o, ho, rfl, rfl, -⟩ := hstep
    obtain ⟨-, hrecorded, -, hzero⟩ := hknows
    have hcounted := h.event hrecorded
    have hpending := pending_of_counted (w := w) hcounted hzero
    rcases resolve_cases (w := w) (t := t) ho with ⟨k, n, hk, hsets, hn⟩ | ⟨hnone, -⟩
    · refine .resolve k n hsets hn (fun k' hne => ?_) ?_ ?_
      · rw [hpending k', hk]
        simp [Call.pending, Ne.symm hne]
      · rw [hpending k, hk]
        simp
      · simp [Call.pending]
    · have hsome := h.key hcounted
      rw [hnone] at hsome
      cases hsome

theorem effect_callerStep (h : c.Ok w) (hpos : t.Positive) {expires : Bool}
    (hstep : callerStep w t c expires c.caller = some (t', c')) : Effect w t c t' c' := by
  cases hpc : c.caller with
  | wait | flag | signal | recheck =>
    rw [hpc] at hstep
    simp only [callerStep, Option.some.injEq, Prod.mk.injEq] at hstep
    obtain ⟨rfl, rfl⟩ := hstep
    exact .silent rfl fun _ => rfl
  | blocked =>
    rw [hpc] at hstep
    simp only [callerStep] at hstep
    split_ifs at hstep <;> cases hstep <;> exact .silent rfl fun _ => rfl
  | record =>
    have hcaller := h.caller
    rw [hpc] at hcaller hstep
    have hno (k : String × ℤ) : c.pending w k = false := by
      rw [Call.pending, hcaller.1]
      rfl
    cases ho : c.owner with
    | none =>
      simp only [callerStep, ho, Option.some.injEq, Prod.mk.injEq] at hstep
      obtain ⟨rfl, rfl⟩ := hstep
      exact .silent rfl fun _ => rfl
    | some o =>
      simp only [callerStep, ho, Option.some.injEq, Prod.mk.injEq] at hstep
      obtain ⟨rfl, rfl⟩ := hstep
      have hzero : c.resolutions = 0 := by
        by_contra hne
        exact absurd (hcaller.2.1.symm.trans (h.locked.recorded hne)) Bool.false_ne_true
      rcases record_cases ho hpos with ⟨k, hk, -, hsets⟩ | ⟨hnone, hsame⟩
      · refine .record k hsets (fun k' hne => ?_) (hno k) ?_
        · rw [hno k']
          show ((c.key w).isSome && decide (c.resolutions = 0) && decide (c.key w = some k')) = false
          simp [hk, Ne.symm hne]
        · show ((c.key w).isSome && decide (c.resolutions = 0) && decide (c.key w = some k)) = true
          simp [hk, hzero]
      · refine .silent (congrArg Prod.snd hsame) fun k' => ?_
        rw [hno k']
        show ((c.key w).isSome && decide (c.resolutions = 0) && decide (c.key w = some k')) = false
        rw [hnone]
        rfl
  | resolving r =>
    rw [hpc] at hstep
    simp only [callerStep, Option.map_eq_some_iff, Prod.mk.injEq] at hstep
    obtain ⟨⟨t₁, c₁, next⟩, hres, rfl, rfl⟩ := hstep
    have hr : c.place .caller = some r := by simp [Call.place, hpc, CallerPc.place]
    cases effect_resolveStep h hr hres with
    | silent ht hc => exact .silent ht hc
    | record k ht hother hc hc' => exact .record k ht hother hc hc'
    | resolve k n ht hn hother hc hc' => exact .resolve k n ht hn hother hc hc'
  | returned =>
    rw [hpc] at hstep
    cases hstep

theorem effect_workerStep (h : c.Ok w) (hstep : workerStep w t c c.worker = some (t', c')) :
    Effect w t c t' c' := by
  cases hpc : c.worker with
  | action | done | check =>
    rw [hpc] at hstep
    simp only [workerStep, Option.some.injEq, Prod.mk.injEq] at hstep
    obtain ⟨rfl, rfl⟩ := hstep
    exact .silent rfl fun _ => rfl
  | resolving r =>
    rw [hpc] at hstep
    simp only [workerStep, Option.map_eq_some_iff, Prod.mk.injEq] at hstep
    obtain ⟨⟨t₁, c₁, next⟩, hres, rfl, rfl⟩ := hstep
    have hr : c.place .worker = some r := by simp [Call.place, hpc, WorkerPc.place]
    cases effect_resolveStep h hr hres with
    | silent ht hc => exact .silent ht hc
    | record k ht hother hc hc' => exact .record k ht hother hc hc'
    | resolve k n ht hn hother hc hc' => exact .resolve k n ht hn hother hc hc'
  | finished =>
    rw [hpc] at hstep
    cases hstep

/-! ## All calls -/

theorem countP_set_add (p : Call → Bool) {calls : List Call} {i : ℕ} (hi : calls[i]? = some c)
    (c' : Call) :
    (calls.set i c').countP p + (if p c then 1 else 0) =
      calls.countP p + if p c' then 1 else 0 := by
  induction calls generalizing i with
  | nil => cases hi
  | cons d calls ih =>
    cases i with
    | zero =>
      cases hi
      rw [List.set_cons_zero, List.countP_cons, List.countP_cons]
      omega
    | succ i =>
      rw [List.set_cons_succ, List.countP_cons, List.countP_cons]
      have hrest := ih hi
      omega

/-- **The invariant.** -/
structure Inv (w : Addresses) (s : State) : Prop where
  ok : ∀ c ∈ s.calls, c.Ok w
  positive : s.table.Positive
  bound : ∀ k, s.table.count k ≤ s.calls.countP (Call.pending w k)

variable {s s' : State}

theorem Inv.update (h : Inv w s) {i : ℕ} (hi : s.calls[i]? = some c) (hok : c'.Ok w)
    (heffect : Effect w s.table c t' c') : Inv w (s.update i (t', c')) := by
  have hcount (k : String × ℤ) := countP_set_add (Call.pending w k) hi c'
  refine ⟨fun d hd => ?_, ?_, fun k => ?_⟩
  · rcases List.mem_or_eq_of_mem_set hd with hmem | rfl
    · exact h.ok d hmem
    · exact hok
  · cases heffect with
    | silent ht => exact ht ▸ h.positive
    | record k ht => exact ht.positive h.positive
    | resolve k n ht => exact ht.positive h.positive
  · have hbound := h.bound k
    have hk := hcount k
    show t'.count k ≤ ((s.calls.set i c').countP (Call.pending w k) : ℤ)
    cases heffect with
    | silent ht hc =>
      rw [hc k] at hk
      rw [ht]
      omega
    | record k' ht hother hc hc' =>
      by_cases heq : k = k'
      · subst heq
        rw [hc, hc'] at hk
        rw [ht.count_self]
        simp only [Bool.false_eq_true, if_false, if_true] at hk
        omega
      · rw [hother k heq] at hk
        rw [ht.count_other k heq]
        omega
    | resolve k' n ht hn hother hc hc' =>
      by_cases heq : k = k'
      · subst heq
        rw [hc, hc'] at hk
        rw [ht.count_self]
        simp only [Bool.false_eq_true, if_false, if_true] at hk
        omega
      · rw [hother k heq] at hk
        rw [ht.count_other k heq]
        omega

theorem ok_new (address : Option String) (generation : Option ℤ) :
    Call.Ok w { bleAddress := address, bleGeneration := generation } where
  locked := ⟨fun side => by cases side <;> exact (Option.some_ne_none _).symm, fun _ => rfl,
    fun hne => absurd rfl hne⟩
  caller := ⟨rfl, rfl, rfl⟩
  worker := rfl
  event := fun h => by cases h
  key := fun h => by cases h
  settled := fun h => by cases h

/-- **One step.** -/
theorem inv_step (h : Inv w s) {a : Act} (hstep : step w s a = some s') : Inv w s' := by
  cases a with
  | call address generation =>
    simp only [step, Option.some.injEq] at hstep
    obtain rfl := hstep
    refine ⟨fun c hc => ?_, h.positive, fun k => ?_⟩
    · rcases List.mem_append.mp hc with hmem | hmem
      · exact h.ok c hmem
      · rw [List.mem_singleton.mp hmem]
        exact ok_new address generation
    · have hbound := h.bound k
      show s.table.count k ≤ _
      rw [List.countP_append]
      push_cast
      omega
  | caller i expires =>
    simp only [step, Option.bind_eq_some_iff, Option.map_eq_some_iff] at hstep
    obtain ⟨c, hi, ⟨t', c'⟩, hcall, rfl⟩ := hstep
    have hok := h.ok c (List.mem_of_getElem? hi)
    exact h.update hi (ok_callerStep hok h.positive hcall) (effect_callerStep hok h.positive hcall)
  | worker i =>
    simp only [step, Option.bind_eq_some_iff, Option.map_eq_some_iff] at hstep
    obtain ⟨c, hi, ⟨t', c'⟩, hcall, rfl⟩ := hstep
    have hok := h.ok c (List.mem_of_getElem? hi)
    exact h.update hi (ok_workerStep hok hcall) (effect_workerStep hok hcall)
  | advance address =>
    simp only [step, Option.some.injEq] at hstep
    obtain rfl := hstep
    have hsame : (advanceBleGeneration w address s.table).2.unresolved = s.table.unresolved := by
      unfold advanceBleGeneration
      simp only
      split_ifs <;> rfl
    refine ⟨h.ok, fun k n hn => ?_, fun k => ?_⟩
    · rw [hsame] at hn
      exact h.positive k n hn
    · show (dictGet? (advanceBleGeneration w address s.table).2.unresolved k).getD 0 ≤ _
      rw [hsame]
      exact h.bound k
  | clear =>
    simp only [step, Option.some.injEq] at hstep
    obtain rfl := hstep
    refine ⟨h.ok, fun k n hn => ?_, fun k => ?_⟩
    · cases hn
    · exact Int.natCast_nonneg _

theorem inv_init : Inv w {} where
  ok := fun c hc => by cases hc
  positive := fun k n hn => by cases hn
  bound := fun k => le_rfl

/-! ## The accounting -/

/-- The wait of the caller has timed out. -/
def Call.hasTimedOut (c : Call) : Bool :=
  match c.caller with
  | .wait | .blocked => false
  | .returned => c.timedOutEvent
  | _ => true

/-- A timed-out worker that has not finished. -/
def Call.unfinished (w : Addresses) (k : String × ℤ) (c : Call) : Bool :=
  c.hasTimedOut && !c.doneEvent && decide (c.key w = some k)

/-- Recorded and not resolved, after the worker has finished. -/
def Call.between (w : Addresses) (k : String × ℤ) (c : Call) : Bool :=
  c.pending w k && c.doneEvent

/-- **At most once**, and only what is recorded. -/
theorem Call.Ok.once (h : c.Ok w) :
    c.resolutions ≤ 1 ∧ (c.resolutions = 1 → c.counted = true) := by
  refine ⟨?_, fun hone => h.event (h.locked.recorded (by rw [hone]; decide))⟩
  cases hlock : c.lock with
  | none =>
    rw [h.locked.free hlock]
    split_ifs <;> decide
  | some side =>
    have hknows := h.locked.knows side
    cases hp : c.place side with
    | none =>
      rw [hp] at hknows
      exact absurd hlock hknows
    | some r =>
      rw [hp] at hknows
      cases r with
      | entry => exact absurd hlock hknows
      | acquire => exact absurd hlock hknows.1
      | check =>
        rw [hknows.2.2]
        split_ifs <;> decide
      | call =>
        rw [hknows.2.2.2]
        decide
      | mark => exact hknows.2.2.le
      | release => exact hknows.2.2.2.le

theorem Call.Ok.hasTimedOut (h : c.Ok w) (hcounted : c.counted = true) :
    c.hasTimedOut = true := by
  have hcaller := h.caller
  unfold Call.hasTimedOut
  cases hpc : c.caller with
  | wait | blocked =>
    rw [hpc] at hcaller
    exact absurd (hcaller.1.symm.trans hcounted) Bool.false_ne_true
  | record | flag | signal | recheck | resolving => rfl
  | returned =>
    rw [hpc] at hcaller
    rcases hcaller with hsignalled | ⟨-, hno⟩
    · exact hsignalled.1
    · exact absurd (hno.symm.trans hcounted) Bool.false_ne_true

theorem countP_pending_le {calls : List Call} (h : ∀ c ∈ calls, c.Ok w) (k : String × ℤ) :
    calls.countP (Call.pending w k) ≤
      calls.countP (Call.unfinished w k) + calls.countP (Call.between w k) := by
  induction calls with
  | nil => exact le_rfl
  | cons c calls ih =>
    have hrest := ih fun d hd => h d (List.mem_cons_of_mem c hd)
    have hc := h c List.mem_cons_self
    rw [List.countP_cons, List.countP_cons, List.countP_cons]
    by_cases hp : c.pending w k = true
    · have hsplit : c.unfinished w k = true ∨ c.between w k = true := by
        have hcounted := hp
        simp only [Call.pending, Bool.and_eq_true, decide_eq_true_eq] at hcounted
        obtain ⟨⟨hcounted, -⟩, hk⟩ := hcounted
        cases hdone : c.doneEvent with
        | true => exact .inr (by rw [Call.between, hp, hdone]; rfl)
        | false => exact .inl (by simp [Call.unfinished, hc.hasTimedOut hcounted, hdone, hk])
      rcases hsplit with hsplit | hsplit
      · rw [if_pos hp, if_pos hsplit]
        omega
      · rw [if_pos hp, if_pos hsplit]
        omega
    · rw [if_neg hp]
      omega

theorem Call.Ok.not_pending (h : c.Ok w) (hret : c.caller = .returned)
    (hfinished : c.worker = .finished) (k : String × ℤ) : c.pending w k = false := by
  rw [Bool.eq_false_iff]
  intro hp
  simp only [Call.pending, Bool.and_eq_true, decide_eq_true_eq] at hp
  have hone := h.settled hret hfinished hp.1.1
  rw [hp.1.2] at hone
  cases hone

/-- **Teardown timeouts are accounted for.** In every state of every run of any number of calls, a
recorded timeout is resolved at most once; no count is negative, and none exceeds its unfinished
timed-out workers and those between record and resolution; when all threads have ended, no entry is
left. -/
theorem teardown_accounted {as : List Act} (hrun : runActs (step w) {} as = some s) :
    (∀ c ∈ s.calls, c.resolutions ≤ 1 ∧ (c.resolutions = 1 → c.counted = true)) ∧
      (∀ k, 0 ≤ s.table.count k ∧ s.table.count k ≤
        s.calls.countP (Call.unfinished w k) + s.calls.countP (Call.between w k)) ∧
      ((∀ c ∈ s.calls, c.caller = .returned ∧ c.worker = .finished) →
        ∀ k, dictGet? s.table.unresolved k = none) := by
  have hinv : Inv w s := runActs_keeps (fun _ _ _ h hstep => inv_step h hstep) inv_init hrun
  refine ⟨fun c hc => (hinv.ok c hc).once, fun k => ?_, fun hend k => ?_⟩
  · have hbound := hinv.bound k
    have hle := countP_pending_le hinv.ok k
    refine ⟨hinv.positive.count_nonneg k, ?_⟩
    omega
  · have hbound := hinv.bound k
    have hzero : s.calls.countP (Call.pending w k) = 0 := by
      rw [List.countP_eq_zero]
      intro c hc
      rw [(hinv.ok c hc).not_pending (hend c hc).1 (hend c hc).2 k]
      exact Bool.false_ne_true
    rw [hzero] at hbound
    cases hk : dictGet? s.table.unresolved k with
    | none => rfl
    | some n =>
      have hpos := hinv.positive k n hk
      rw [Lifecycle.count, hk] at hbound
      change n ≤ 0 at hbound
      omega

/-- The worker ends between the record and the signal, so the caller resolves. -/
def endsUnseen : List Act :=
  [.call (some "AA:BB") (some 1), .caller 0 false, .caller 0 true, .caller 0 false, .worker 0,
    .worker 0, .worker 0, .caller 0 false, .caller 0 false, .caller 0 false, .caller 0 false,
    .caller 0 false, .caller 0 false, .caller 0 false, .caller 0 false, .caller 0 false]

example : (runActs (step ⟨fun _ => none, asciiLower⟩) {} endsUnseen).map
    (fun s => (s.table.unresolved, s.calls.map fun c => (c.caller, c.worker, c.resolutions))) =
      some ([], [(.returned, .finished, 1)]) := by decide +kernel

theorem teardown_accounted_endsUnseen :
    let w : Addresses := ⟨fun _ => none, asciiLower⟩
    ∃ s, runActs (step w) {} endsUnseen = some s ∧
      (∀ c ∈ s.calls, c.resolutions ≤ 1 ∧ (c.resolutions = 1 → c.counted = true)) ∧
      (∀ k, 0 ≤ s.table.count k ∧ s.table.count k ≤
        s.calls.countP (Call.unfinished w k) + s.calls.countP (Call.between w k)) ∧
      ((∀ c ∈ s.calls, c.caller = .returned ∧ c.worker = .finished) →
        ∀ k, dictGet? s.table.unresolved k = none) := by
  intro w
  have hrun : ∃ s, runActs (step w) {} endsUnseen = some s :=
    Option.isSome_iff_exists.mp (by decide +kernel)
  obtain ⟨s, hs⟩ := hrun
  exact ⟨s, hs, teardown_accounted hs⟩

end MMRelay.Radio.Teardown
