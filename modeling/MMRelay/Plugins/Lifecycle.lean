import MMRelay.Lib.PyValue
import MMRelay.Lib.Run
import Mathlib.Data.List.Sort

/-!
# Starting and stopping plugins

The end of `load_plugins`, `shutdown_plugins`, `schedule_job`, `clear_plugin_jobs` and the global
scheduler (`plugin_loader.py`) with `BasePlugin.start` and `BasePlugin.stop`
(`plugins/base_plugin.py`), over any sequence of loads and shutdowns.

* `Library`, `Plugin`: the `schedule` library, and plugins with a `start` and a `stop` of their own;
* `State`, `Act`, `step`: the runs;
* `filter_insertionSort`: a stable sort keeps the order of what has one key;
* `Ledger`, `Scheduled`, `Threads`: the invariants;
* **`lifecycle_sound`**: in every run plugins are called in order of priority, every one is started
  at most once and stopped at most once after that, no job outlives its plugin, and no two threads
  run them, until an exception that is no `Exception` tears a load or a shutdown;
* `wedged_outlives`, `torn_orphans`: what it excepts.
-/

namespace MMRelay.Plugins.Lifecycle

/-! ## The schedule library -/

inductive Span
  | hours
  | minutes
  | seconds
  deriving DecidableEq

/-- When a job is to run. -/
structure Timing where
  span : Span
  interval : Py
  /-- The argument of `at`. -/
  time : Option Py

/-- What the library makes of a timing. -/
inductive Verdict
  | accepted
  /-- `ValueError` or `TypeError`. -/
  | refused
  | raised
  deriving DecidableEq

structure Library where
  /-- `schedule` can be imported. -/
  available : Bool
  verdict : Timing → Verdict

/-- A job with its tag and the instance whose `background_job` it runs. -/
structure Job where
  tag : String
  owner : ℕ
  deriving DecidableEq

/-! ## Plugins -/

/-- How a method ends: it returns, or it raises an `Exception`, or another one such as
`SystemExit`. -/
inductive Ending
  | returned
  | raised
  | quit
  deriving DecidableEq

/-- A plugin's own `start` or `stop`: it may call that of `BasePlugin`, and schedules through that
only. -/
structure Method where
  callsBase : Bool
  ending : Ending
  deriving DecidableEq

structure Plugin where
  name : String
  isCore : Bool
  priority : Py
  /-- `self.config.get("schedule")`. -/
  schedule : Py
  onStart : Method
  onStop : Method

/-- The timing that a plugin's configuration asks for. -/
def wanted (schedule : Py) : Option Timing :=
  match schedule.key? "hours", schedule.key? "minutes", schedule.key? "seconds" with
  | some hours, _, _ => some ⟨.hours, hours, schedule.key? "at"⟩
  | none, some minutes, _ => some ⟨.minutes, minutes, schedule.key? "at"⟩
  -- a time of day is not used with seconds
  | none, none, some seconds => some ⟨.seconds, seconds, none⟩
  | none, none, none => none

/-- `DEFAULT_PLUGIN_PRIORITY`. -/
def defaultPluginPriority : ℤ := 100

/-- A section of the configuration, if it is a mapping. -/
def sectionDict (config : Py) (name : String) : Py :=
  match config.field name with
  | .dict kvs => .dict kvs
  | _ => .dict []

/-- The entry of a plugin; custom plugins go before community plugins. -/
def pluginConfig (config : Py) (plugin : Plugin) : Py :=
  if plugin.isCore then (sectionDict config "plugins").field plugin.name
  else
    match (sectionDict config "custom-plugins").key? plugin.name with
    | some entry => entry
    | none => (sectionDict config "community-plugins").field plugin.name

/-- A plugin is active if its entry says so, with a boolean. -/
def isActive (config : Py) (plugin : Plugin) : Bool :=
  match (pluginConfig config plugin).field "active" with
  | .bool b => b
  | _ => false

def intPriority? : Py → Option ℤ
  | .int n => some n
  | _ => none

/-- The priority of an active plugin: its entry's, its own or the default. -/
def priorityOf (config : Py) (plugin : Plugin) : ℤ :=
  let default := (intPriority? plugin.priority).getD defaultPluginPriority
  match (pluginConfig config plugin).key? "priority" with
  | some raw => (intPriority? raw).getD default
  | none => default

/-! ## The state -/

/-- An instance in `sorted_active_plugins`. -/
structure Running where
  id : ℕ
  plugin : Plugin
  priority : ℤ

/-- A call of an instance's `start` or `stop`. -/
inductive Call
  | start (id : ℕ)
  | stop (id : ℕ)
  deriving DecidableEq

def Call.id : Call → ℕ
  | .start id => id
  | .stop id => id

/-- A scheduler thread. -/
structure Thread where
  told : Bool
  alive : Bool
  deriving DecidableEq

structure State where
  loaded : Bool
  /-- `sorted_active_plugins`. -/
  active : List Running
  jobs : List Job
  /-- `_global_scheduler_thread`. -/
  scheduler : Option ℕ
  threads : List Thread
  /-- The instances that were made, and the calls that they got. -/
  made : List Plugin
  calls : List Call
  /-- A load or a shutdown was left by an exception that it does not catch. -/
  torn : Bool

/-- The order of a sort by a key. -/
def KeyLe {α : Type} (key : α → ℤ) (a b : α) : Prop := key a ≤ key b

instance {α : Type} (key : α → ℤ) : DecidableRel (KeyLe key) := fun a b =>
  inferInstanceAs (Decidable (key a ≤ key b))

instance {α : Type} (key : α → ℤ) : IsTrans α (KeyLe key) := ⟨fun _ _ _ hab hbc => le_trans hab hbc⟩

instance {α : Type} (key : α → ℤ) : Std.Total (KeyLe key) := ⟨fun a b => le_total (key a) (key b)⟩

def init : State := ⟨false, [], [], none, [], [], [], false⟩

namespace State

/-- The calls of an instance, in order. -/
def callsOf (s : State) (id : ℕ) : List Call := s.calls.filter fun c => c.id = id

def record (s : State) (c : Call) : State := { s with calls := s.calls ++ [c] }

def make (s : State) (p : Plugin) : State := { s with made := s.made ++ [p] }

/-- `clear_plugin_jobs`; a plugin without a name has no jobs. -/
def clearPluginJobs (s : State) (name : String) : State :=
  if name = "" then s else { s with jobs := s.jobs.filter fun j => j.tag ≠ name }

/-- `BasePlugin.start`; whether it returns. -/
def baseStart (lib : Library) (s : State) (id : ℕ) (p : Plugin) : State × Bool :=
  let s := s.clearPluginJobs p.name
  match wanted p.schedule with
  | none => (s, true)
  | some timing =>
    if p.name = "" || !lib.available then (s, true)
    else
      match lib.verdict timing with
      | .accepted => ({ s with jobs := s.jobs ++ [⟨p.name, id⟩] }, true)
      | .refused => (s, true)
      | .raised => (s, false)

/-- `plugin.start()`, and how it ends. -/
def callStart (lib : Library) (s : State) (id : ℕ) (p : Plugin) : State × Ending :=
  let s := s.record (.start id)
  if p.onStart.callsBase then
    match s.baseStart lib id p with
    | (s, true) => (s, p.onStart.ending)
    | (s, false) => (s, .raised)
  else (s, p.onStart.ending)

/-- `plugin.stop()`. -/
def callStop (s : State) (id : ℕ) (p : Plugin) : State :=
  let s := s.record (.stop id)
  if p.onStop.callsBase then s.clearPluginJobs p.name else s

/-- `start_global_scheduler`. -/
def startGlobalScheduler (lib : Library) (s : State) : State :=
  if !lib.available then s
  else if (s.scheduler.bind fun k => s.threads[k]?).any Thread.alive then s
  else { s with scheduler := some s.threads.length, threads := s.threads ++ [⟨false, true⟩] }

/-- `stop_global_scheduler`; the thread may go on after the time it is given. -/
def stopGlobalScheduler (s : State) : State :=
  match s.scheduler with
  | none => s
  | some k =>
    { s with
      scheduler := none
      threads := s.threads.modify k fun t => { t with told := true }
      jobs := [] }

/-- The loop of `load_plugins` over the instances; what it appends to `active_plugins`, or `none` if
it is left. An `Exception` is caught, in `start` and in the `stop` after it. -/
def startAll (lib : Library) (config : Py) : List Plugin → State → State × Option (List Running)
  | [], s => (s, some [])
  | p :: ps, s =>
    let id := s.made.length
    let s := s.make p
    if isActive config p then
      match s.callStart lib id p with
      | (s, .returned) =>
        let rest := startAll lib config ps s
        (rest.1, rest.2.map fun active => ⟨id, p, priorityOf config p⟩ :: active)
      | (s, .raised) =>
        let s := s.callStop id p
        if p.onStop.ending = .quit then (s, none) else startAll lib config ps s
      | (s, .quit) => (s, none)
    else startAll lib config ps s

/-- `sorted(active_plugins, key=lambda plugin: plugin.priority)`. -/
def sortActive (active : List Running) : List Running :=
  active.insertionSort (KeyLe Running.priority)

/-- The end of `load_plugins`, for the instances that were found. -/
def loadPlugins (lib : Library) (config : Py) (found : List Plugin) (s : State) : State :=
  if s.loaded || !config.isDict then s
  else
    match startAll lib config found (s.startGlobalScheduler lib) with
    | (s, some active) => { s with active := sortActive active, loaded := true }
    | (s, none) => { s with torn := true }

/-- The loop of `shutdown_plugins`; whether it gets to its end. -/
def stopAll : List Running → State → State × Bool
  | [], s => (s, true)
  | r :: rs, s =>
    let s := s.callStop r.id r.plugin
    if r.plugin.onStop.ending = .quit then (s, false) else stopAll rs s

/-- `shutdown_plugins`. -/
def shutdownPlugins (s : State) : State :=
  if s.active.isEmpty then { s with loaded := false }
  else
    match stopAll s.active s with
    | (s, true) => { s.stopGlobalScheduler with active := [], loaded := false }
    | (s, false) => { s with torn := true }

end State

/-- What happens to the plugins; a scheduler thread ends when it is told to or a job raises. -/
inductive Act
  | load (config : Py) (found : List Plugin)
  | shutdown
  | threadEnds (k : ℕ)

def step (lib : Library) (s : State) : Act → Option State
  | .load config found => some (s.loadPlugins lib config found)
  | .shutdown => some s.shutdownPlugins
  | .threadEnds k =>
    match s.threads[k]? with
    | some t =>
      if t.alive then
        some { s with threads := s.threads.modify k fun t => { t with alive := false } }
      else none
    | none => none

/-! ## What the runs keep -/

/-- An instance whose `start` raised when its job was there already, and whose `stop` does not clear
that. -/
def State.Wedged (s : State) (id : ℕ) : Prop :=
  ∃ p, s.made[id]? = some p ∧ p.onStart = ⟨true, .raised⟩ ∧ p.onStop.callsBase = false

/-- Every call and every job is accounted for. -/
structure Accounted (s : State) : Prop where
  once : ∀ id, s.callsOf id = [] ∨ s.callsOf id = [.start id] ∨
    s.callsOf id = [.start id, .stop id]
  running : ∀ id, s.callsOf id = [.start id] ↔ ∃ r ∈ s.active, r.id = id
  jobs : ∀ j ∈ s.jobs,
    (∃ r ∈ s.active, r.id = j.owner ∧ r.plugin.name = j.tag) ∨ s.Wedged j.owner
  oneJob : (s.jobs.map Job.tag).Nodup

structure Sound (s : State) : Prop where
  sorted : s.active.Pairwise fun a b => a.priority ≤ b.priority
  /-- Plugins of one priority are in the order in which they were found. -/
  stable : ∀ k, ((s.active.filter fun r => r.priority = k).map Running.id).Pairwise (· < ·)
  unloaded : s.loaded = false → s.active = []
  oneThread : ∀ k t, s.threads[k]? = some t → t.alive = true → t.told = false →
    s.scheduler = some k
  accounted : s.torn = false → Accounted s

/-! ## A stable sort -/

section

variable {α : Type} (key : α → ℤ)

/-- **A stable sort keeps the order of what has one key.** -/
theorem filter_insertionSort (xs : List α) (k : ℤ) :
    (xs.insertionSort (KeyLe key)).filter (fun a => key a = k) = xs.filter fun a => key a = k := by
  have hsame : (xs.filter fun a => key a = k).Pairwise (KeyLe key) := by
    refine List.pairwise_of_forall_mem_list fun a ha b hb => ?_
    rw [List.mem_filter, decide_eq_true_eq] at ha hb
    exact (ha.2.trans hb.2.symm).le
  have hsub : List.Sublist (xs.filter fun a => key a = k) (xs.insertionSort (KeyLe key)) :=
    List.sublist_insertionSort hsame List.filter_sublist
  have hfilter := hsub.filter fun a => decide (key a = k)
  rw [List.filter_filter] at hfilter
  simp only [Bool.and_self] at hfilter
  refine (hfilter.eq_of_length ?_).symm
  exact (((List.perm_insertionSort _ xs).filter _).length_eq).symm

end

/-! ## The calls -/

variable {lib : Library} {config : Py} {s t : State} {live : List Running} {r : Running}
  {id : ℕ} {p : Plugin}

/-- The calls so far, for the instances that are live. -/
structure Ledger (s : State) (live : List Running) : Prop where
  made : ∀ r ∈ live, s.made[r.id]? = some r.plugin
  distinct : (live.map Running.id).Nodup
  once : ∀ id, s.callsOf id = [] ∨ s.callsOf id = [.start id] ∨
    s.callsOf id = [.start id, .stop id]
  running : ∀ id, s.callsOf id = [.start id] ↔ ∃ r ∈ live, r.id = id
  fresh : ∀ id, s.made.length ≤ id → s.callsOf id = []

theorem Ledger.congr (h : Ledger s live) (hmade : t.made = s.made) (hcalls : t.calls = s.calls) :
    Ledger t live := by
  have hof : ∀ id, t.callsOf id = s.callsOf id := fun id => by
    unfold State.callsOf
    rw [hcalls]
  refine ⟨fun r hr => ?_, h.distinct, fun id => ?_, fun id => ?_, fun id hid => ?_⟩
  · rw [hmade]
    exact h.made r hr
  · rw [hof]
    exact h.once id
  · rw [hof]
    exact h.running id
  · rw [hof]
    exact h.fresh id (hmade ▸ hid)

theorem callsOf_record (s : State) (c : Call) (id : ℕ) :
    (s.record c).callsOf id = s.callsOf id ++ if c.id = id then [c] else [] := by
  show (s.calls ++ [c]).filter _ = _
  rw [List.filter_append, List.filter_singleton]
  congr 1
  by_cases h : c.id = id <;> simp [h]

theorem Ledger.perm {live' : List Running} (h : Ledger s live) (hperm : live.Perm live') :
    Ledger s live' where
  made r hr := h.made r (hperm.mem_iff.mpr hr)
  distinct := (hperm.map Running.id).nodup_iff.mp h.distinct
  once := h.once
  running id := (h.running id).trans
    ⟨fun ⟨r, hr, he⟩ => ⟨r, hperm.mem_iff.mp hr, he⟩,
      fun ⟨r, hr, he⟩ => ⟨r, hperm.mem_iff.mpr hr, he⟩⟩
  fresh := h.fresh

theorem Ledger.lt (h : Ledger s live) (hr : r ∈ live) : r.id < s.made.length :=
  (List.getElem?_eq_some_iff.mp (h.made r hr)).1

theorem Ledger.make (h : Ledger s live) (p : Plugin) :
    Ledger (s.make p) live where
  made r hr := (List.getElem?_append_left (h.lt hr)).trans (h.made r hr)
  distinct := h.distinct
  once := h.once
  running := h.running
  fresh id hid := by
    change (s.made ++ [p]).length ≤ id at hid
    rw [List.length_append] at hid
    exact h.fresh id (by omega)

theorem Ledger.start (h : Ledger s live) {r : Running} (hmade : s.made[r.id]? = some r.plugin)
    (hnone : s.callsOf r.id = []) : Ledger (s.record (.start r.id)) (live ++ [r]) := by
  have hnot : ∀ q ∈ live, q.id ≠ r.id := by
    intro q hq he
    have hcalls := (h.running q.id).mpr ⟨q, hq, rfl⟩
    rw [he, hnone] at hcalls
    exact nomatch hcalls
  refine ⟨fun q hq => ?_, ?_, fun id => ?_, fun id => ?_, fun id hid => ?_⟩
  · obtain hq | hq := List.mem_append.mp hq
    · exact h.made q hq
    · rw [List.mem_singleton.mp hq]
      exact hmade
  · rw [List.map_append, List.nodup_append]
    refine ⟨h.distinct, List.nodup_singleton _, fun a ha b hb => ?_⟩
    obtain ⟨q, hq, rfl⟩ := List.mem_map.mp ha
    rw [List.mem_singleton.mp hb]
    exact hnot q hq
  · rw [callsOf_record]
    by_cases he : r.id = id
    · subst he
      rw [hnone]
      simp [Call.id]
    · simpa [Call.id, he] using h.once id
  · rw [callsOf_record]
    by_cases he : r.id = id
    · subst he
      rw [hnone]
      simp [Call.id]
    · simpa [Call.id, he, or_and_right, exists_or] using h.running id
  · have hne : r.id ≠ id := by
      have hlt := (List.getElem?_eq_some_iff.mp hmade).1
      have hle : s.made.length ≤ id := hid
      omega
    rw [callsOf_record]
    simpa [Call.id, hne] using h.fresh id hid

theorem Ledger.stop (h : Ledger s (r :: live)) : Ledger (s.record (.stop r.id)) live := by
  have hstarted : s.callsOf r.id = [.start r.id] :=
    (h.running r.id).mpr ⟨r, List.mem_cons_self, rfl⟩
  have hdistinct := List.nodup_cons.mp h.distinct
  refine ⟨fun q hq => h.made q (List.mem_cons_of_mem r hq), hdistinct.2, fun id => ?_,
    fun id => ?_, fun id hid => ?_⟩
  · rw [callsOf_record]
    by_cases he : r.id = id
    · subst he
      rw [hstarted]
      simp [Call.id]
    · simpa [Call.id, he] using h.once id
  · rw [callsOf_record]
    by_cases he : r.id = id
    · subst he
      rw [hstarted]
      have hnot : ¬ ∃ q ∈ live, q.id = r.id := fun ⟨q, hq, hqr⟩ =>
        hdistinct.1 (List.mem_map.mpr ⟨q, hq, hqr⟩)
      simpa [Call.id] using hnot
    · simpa [Call.id, he] using h.running id
  · have hne : r.id ≠ id := by
      have hlt := h.lt List.mem_cons_self
      have hle : s.made.length ≤ id := hid
      omega
    rw [callsOf_record]
    simpa [Call.id, hne] using h.fresh id hid

/-! ## The jobs -/

/-- The jobs, for the instances that are live. -/
structure Scheduled (s : State) (live : List Running) : Prop where
  jobs : ∀ j ∈ s.jobs, (∃ r ∈ live, r.id = j.owner ∧ r.plugin.name = j.tag) ∨ s.Wedged j.owner
  named : ∀ j ∈ s.jobs, j.tag ≠ ""
  oneJob : (s.jobs.map Job.tag).Nodup
  idle : s.scheduler = none → s.jobs = []

namespace Scheduled

theorem record (h : Scheduled s live) (c : Call) : Scheduled (s.record c) live :=
  ⟨h.jobs, h.named, h.oneJob, h.idle⟩

theorem mono {live' : List Running} (h : Scheduled s live) (hsub : ∀ r ∈ live, r ∈ live') :
    Scheduled s live' :=
  ⟨fun j hj => (h.jobs j hj).imp_left fun ⟨r, hr, he⟩ => ⟨r, hsub r hr, he⟩, h.named, h.oneJob,
    h.idle⟩

theorem make (h : Scheduled s live) (p : Plugin) :
    Scheduled (s.make p) live := by
  refine ⟨fun j hj => (h.jobs j hj).imp_right fun ⟨q, hq, hwedged⟩ => ⟨q, ?_, hwedged⟩, h.named,
    h.oneJob, h.idle⟩
  exact (List.getElem?_append_left (List.getElem?_eq_some_iff.mp hq).1).trans hq

theorem filter (h : Scheduled s live) (keep : Job → Bool) :
    Scheduled { s with jobs := s.jobs.filter keep } live where
  jobs j hj := h.jobs j (List.mem_of_mem_filter hj)
  named j hj := h.named j (List.mem_of_mem_filter hj)
  oneJob := h.oneJob.sublist (List.filter_sublist.map Job.tag)
  idle hs := by
    show s.jobs.filter keep = []
    rw [h.idle hs, List.filter_nil]

theorem clear (h : Scheduled s live) (name : String) :
    Scheduled (s.clearPluginJobs name) live := by
  unfold State.clearPluginJobs
  split
  · exact h
  · exact h.filter _

theorem drop (h : Scheduled s (live ++ [r])) :
    Scheduled (s.clearPluginJobs r.plugin.name) live := by
  have hclear := h.clear r.plugin.name
  refine ⟨fun j hj => ?_, hclear.named, hclear.oneJob, hclear.idle⟩
  refine (hclear.jobs j hj).imp_left fun ⟨q, hq, hid, htag⟩ => ?_
  obtain hq | hq := List.mem_append.mp hq
  · exact ⟨q, hq, hid, htag⟩
  · obtain rfl := List.mem_singleton.mp hq
    have hname := hclear.named j hj
    unfold State.clearPluginJobs at hj
    rw [if_neg (htag ▸ hname)] at hj
    have hne := (List.mem_filter.mp hj).2
    rw [decide_eq_true_eq] at hne
    exact absurd htag.symm hne

theorem wedge (h : Scheduled s (live ++ [r])) (hwedged : s.Wedged r.id) : Scheduled s live := by
  refine ⟨fun j hj => ?_, h.named, h.oneJob, h.idle⟩
  obtain ⟨q, hq, hid, htag⟩ | hw := h.jobs j hj
  · obtain hq | hq := List.mem_append.mp hq
    · exact .inl ⟨q, hq, hid, htag⟩
    · rw [List.mem_singleton.mp hq] at hid
      exact .inr (hid ▸ hwedged)
  · exact .inr hw

end Scheduled

/-- `BasePlugin.start` clears the plugin's jobs, and adds one at most if it returns. -/
theorem baseStart_cases (s : State) (lib : Library) (id : ℕ) (p : Plugin) :
    (s.baseStart lib id p).1 = s.clearPluginJobs p.name ∨
      (p.name ≠ "" ∧ lib.available = true ∧ s.baseStart lib id p =
        ({ s.clearPluginJobs p.name with
            jobs := (s.clearPluginJobs p.name).jobs ++ [⟨p.name, id⟩] }, true)) := by
  unfold State.baseStart
  dsimp only
  split
  · exact .inl rfl
  · split_ifs with hskip
    · exact .inl rfl
    · rw [Bool.or_eq_true, not_or, decide_eq_true_eq, Bool.not_eq_true, Bool.not_eq_false'] at hskip
      split
      · exact .inr ⟨hskip.1, hskip.2, rfl⟩
      · exact .inl rfl
      · exact .inl rfl

theorem Scheduled.baseStart (h : Scheduled s live) (hserves : lib.available = true →
    s.scheduler ≠ none) (r : Running) :
    Scheduled (s.baseStart lib r.id r.plugin).1 (live ++ [r]) := by
  have hclear : Scheduled (s.clearPluginJobs r.plugin.name) (live ++ [r]) :=
    (h.clear _).mono fun q hq => List.mem_append_left _ hq
  obtain heq | ⟨hname, hlib, heq⟩ := baseStart_cases s lib r.id r.plugin
  · rw [heq]
    exact hclear
  · have hjobs : (s.clearPluginJobs r.plugin.name).jobs =
        s.jobs.filter fun j => j.tag ≠ r.plugin.name := by
      unfold State.clearPluginJobs
      rw [if_neg hname]
    have hscheduler : (s.clearPluginJobs r.plugin.name).scheduler = s.scheduler := by
      unfold State.clearPluginJobs
      rw [if_neg hname]
    rw [heq]
    refine ⟨fun j hj => ?_, fun j hj => ?_, ?_, fun hs => ?_⟩
    · obtain hj | hj := List.mem_append.mp hj
      · exact hclear.jobs j hj
      · rw [List.mem_singleton.mp hj]
        exact .inl ⟨r, List.mem_append_right _ List.mem_cons_self, rfl, rfl⟩
    · obtain hj | hj := List.mem_append.mp hj
      · exact hclear.named j hj
      · rw [List.mem_singleton.mp hj]
        exact hname
    · show (List.map Job.tag (_ ++ [_])).Nodup
      rw [List.map_append, List.nodup_append]
      refine ⟨hclear.oneJob, List.nodup_singleton _, fun a ha b hb => ?_⟩
      obtain ⟨j, hj, rfl⟩ := List.mem_map.mp ha
      rw [hjobs, List.mem_filter, decide_eq_true_eq] at hj
      rw [List.mem_singleton.mp hb]
      exact hj.2
    · exact absurd (hscheduler.symm.trans hs) (hserves hlib)

/-! ## A load -/

theorem clear_rest (s : State) (name : String) :
    ∃ jobs, s.clearPluginJobs name = { s with jobs := jobs } := by
  unfold State.clearPluginJobs
  split
  · exact ⟨s.jobs, rfl⟩
  · exact ⟨_, rfl⟩

theorem baseStart_rest (s : State) (lib : Library) (id : ℕ) (p : Plugin) :
    ∃ jobs, (s.baseStart lib id p).1 = { s with jobs := jobs } := by
  obtain ⟨jobs, hclear⟩ := clear_rest s p.name
  obtain heq | ⟨-, -, heq⟩ := baseStart_cases s lib id p
  · exact ⟨jobs, heq.trans hclear⟩
  · rw [heq, hclear]
    exact ⟨_, rfl⟩

theorem callStart_rest (s : State) (lib : Library) (id : ℕ) (p : Plugin) :
    ∃ jobs, (s.callStart lib id p).1 = { s.record (.start id) with jobs := jobs } := by
  obtain ⟨jobs, hbase⟩ := baseStart_rest (s.record (.start id)) lib id p
  unfold State.callStart
  dsimp only
  split
  · refine ⟨jobs, ?_⟩
    split <;> next t hcall => rw [← hbase, hcall]
  · exact ⟨s.jobs, rfl⟩

theorem callStop_rest (s : State) (id : ℕ) (p : Plugin) :
    ∃ jobs, s.callStop id p = { s.record (.stop id) with jobs := jobs } := by
  unfold State.callStop
  dsimp only
  split
  · exact clear_rest _ p.name
  · exact ⟨s.jobs, rfl⟩

theorem Scheduled.callStart (h : Scheduled s live) (hserves : lib.available = true →
    s.scheduler ≠ none) (r : Running) :
    Scheduled (s.callStart lib r.id r.plugin).1 (live ++ [r]) := by
  have hrecord := h.record (.start r.id)
  have hbase : Scheduled ((s.record (.start r.id)).baseStart lib r.id r.plugin).1 (live ++ [r]) :=
    hrecord.baseStart hserves r
  unfold State.callStart
  dsimp only
  split
  · split <;>
    · next t hcall =>
      rw [hcall] at hbase
      exact hbase
  · exact hrecord.mono fun q hq => List.mem_append_left _ hq

/-- A start that raises leaves a job only if it raised late. -/
theorem Scheduled.callStart_raised (h : Scheduled s live) {r : Running}
    (hlate : r.plugin.onStart ≠ ⟨true, .raised⟩)
    (hraised : (s.callStart lib r.id r.plugin).2 = .raised) :
    Scheduled (s.callStart lib r.id r.plugin).1 live := by
  have hrecord := h.record (.start r.id)
  unfold State.callStart at hraised ⊢
  dsimp only at hraised ⊢
  cases hbase : r.plugin.onStart.callsBase with
  | false => exact hrecord
  | true =>
    rw [if_pos hbase] at hraised
    rw [if_pos rfl]
    obtain heq | ⟨-, -, heq⟩ := baseStart_cases (s.record (.start r.id)) lib r.id r.plugin
    · have hclear := hrecord.clear r.plugin.name
      rw [← heq] at hclear
      split <;>
      · next t hcall =>
        rw [hcall] at hclear
        exact hclear
    · -- the job was added, and the plugin raised after that
      rw [heq] at hraised
      have hending : r.plugin.onStart.ending = .raised := hraised
      have hsame : r.plugin.onStart = ⟨true, .raised⟩ := by
        rw [← hbase, ← hending]
      exact absurd hsame hlate

/-- The call of `stop` after a start that raised: no job of the instance is left, unless it is
wedged. -/
theorem Scheduled.failed (h : Scheduled s live) (hserves : lib.available = true →
    s.scheduler ≠ none) {r : Running} (hmade : s.made[r.id]? = some r.plugin)
    (hraised : (s.callStart lib r.id r.plugin).2 = .raised) :
    Scheduled ((s.callStart lib r.id r.plugin).1.callStop r.id r.plugin) live := by
  have hstarted := (h.callStart hserves r).record (.stop r.id)
  unfold State.callStop
  dsimp only
  split_ifs with hclears
  · exact hstarted.drop
  · by_cases hlate : r.plugin.onStart = ⟨true, .raised⟩
    · obtain ⟨jobs, hrest⟩ := callStart_rest s lib r.id r.plugin
      refine hstarted.wedge ⟨r.plugin, ?_, hlate, Bool.not_eq_true _ ▸ hclears⟩
      rw [hrest]
      exact hmade
    · exact (h.callStart_raised hlate hraised).record _

theorem made_of_callStart {ending : Ending} (h : s.callStart lib id p = (t, ending)) :
    t.made = s.made := by
  obtain ⟨jobs, hrest⟩ := callStart_rest s lib id p
  rw [h] at hrest
  change t = _ at hrest
  rw [hrest]
  rfl

theorem calls_of_callStart {ending : Ending} (h : s.callStart lib id p = (t, ending)) :
    t.calls = (s.record (.start id)).calls := by
  obtain ⟨jobs, hrest⟩ := callStart_rest s lib id p
  rw [h] at hrest
  change t = _ at hrest
  rw [hrest]

theorem callStop_made (s : State) (id : ℕ) (p : Plugin) : (s.callStop id p).made = s.made := by
  obtain ⟨jobs, hrest⟩ := callStop_rest s id p
  rw [hrest]
  rfl

theorem callStop_calls (s : State) (id : ℕ) (p : Plugin) :
    (s.callStop id p).calls = (s.record (.stop id)).calls := by
  obtain ⟨jobs, hrest⟩ := callStop_rest s id p
  rw [hrest]

/-- The instances, their calls and their jobs aside, nothing changes. -/
structure Untouched (s t : State) : Prop where
  loaded : t.loaded = s.loaded
  active : t.active = s.active
  scheduler : t.scheduler = s.scheduler
  threads : t.threads = s.threads
  torn : t.torn = s.torn

theorem Untouched.trans {u : State} (h : Untouched s t) (h' : Untouched t u) : Untouched s u :=
  ⟨h'.loaded.trans h.loaded, h'.active.trans h.active, h'.scheduler.trans h.scheduler,
    h'.threads.trans h.threads, h'.torn.trans h.torn⟩

theorem untouched_make (s : State) (p : Plugin) : Untouched s (s.make p) :=
  ⟨rfl, rfl, rfl, rfl, rfl⟩

theorem untouched_callStart (s : State) (lib : Library) (id : ℕ) (p : Plugin) :
    Untouched s (s.callStart lib id p).1 := by
  obtain ⟨jobs, hrest⟩ := callStart_rest s lib id p
  rw [hrest]
  exact ⟨rfl, rfl, rfl, rfl, rfl⟩

theorem untouched_callStop (s : State) (id : ℕ) (p : Plugin) : Untouched s (s.callStop id p) := by
  obtain ⟨jobs, hrest⟩ := callStop_rest s id p
  rw [hrest]
  exact ⟨rfl, rfl, rfl, rfl, rfl⟩

/-- What the loop makes of one instance: it is not active, or it is started, or its start raises and
it is stopped, or the loop is left. -/
theorem startAll_cons (lib : Library) (config : Py) (p : Plugin) (ps : List Plugin) (s : State) :
    let r : Running := ⟨s.made.length, p, priorityOf config p⟩
    State.startAll lib config (p :: ps) s = State.startAll lib config ps (s.make p) ∨
    (∃ t, (s.make p).callStart lib r.id p = (t, .returned) ∧
      State.startAll lib config (p :: ps) s = ((State.startAll lib config ps t).1,
        (State.startAll lib config ps t).2.map fun active => r :: active)) ∨
    (∃ t, (s.make p).callStart lib r.id p = (t, .raised) ∧
      State.startAll lib config (p :: ps) s = State.startAll lib config ps (t.callStop r.id p)) ∨
    (∃ t, Untouched s t ∧ State.startAll lib config (p :: ps) s = (t, none)) := by
  intro r
  have hstart : Untouched s ((s.make p).callStart lib r.id p).1 :=
    (untouched_make s p).trans (untouched_callStart _ lib r.id p)
  rw [State.startAll]
  cases isActive config p with
  | false => exact .inl rfl
  | true =>
    change Untouched s ((s.make p).callStart lib s.made.length p).1 at hstart
    cases hcall : (s.make p).callStart lib s.made.length p with
    | mk t ending =>
      rw [hcall] at hstart
      cases ending with
      | returned => exact .inr (.inl ⟨t, rfl, rfl⟩)
      | raised =>
        by_cases hquit : p.onStop.ending = .quit
        · refine .inr (.inr (.inr ⟨_, hstart.trans (untouched_callStop t r.id p), ?_⟩))
          exact if_pos hquit
        · exact .inr (.inr (.inl ⟨t, rfl, if_neg hquit⟩))
      | quit => exact .inr (.inr (.inr ⟨t, hstart, rfl⟩))

theorem untouched_startAll (lib : Library) (config : Py) (ps : List Plugin) (s : State) :
    Untouched s (State.startAll lib config ps s).1 := by
  induction ps generalizing s with
  | nil => exact ⟨rfl, rfl, rfl, rfl, rfl⟩
  | cons p ps ih =>
    have hstart := (untouched_make s p).trans (untouched_callStart _ lib s.made.length p)
    rcases startAll_cons lib config p ps s with
      hall | ⟨t, hcall, hall⟩ | ⟨t, hcall, hall⟩ | ⟨t, hrest, hall⟩
    · rw [hall]
      exact (untouched_make s p).trans (ih _)
    · rw [hcall] at hstart
      rw [hall]
      exact hstart.trans (ih t)
    · rw [hcall] at hstart
      rw [hall]
      exact (hstart.trans (untouched_callStop t _ p)).trans (ih _)
    · rw [hall]
      exact hrest

variable {active : List Running}

/-- The instances are started in the order in which they are made. -/
theorem startAll_ordered (ps : List Plugin)
    (h : (State.startAll lib config ps s).2 = some active) :
    (active.map Running.id).Pairwise (· < ·) ∧ ∀ q ∈ active, s.made.length ≤ q.id := by
  induction ps generalizing s active with
  | nil =>
    cases h
    exact ⟨List.Pairwise.nil, fun q hq => absurd hq List.not_mem_nil⟩
  | cons p ps ih =>
    have hmade : (s.make p).made.length = s.made.length + 1 := List.length_append
    rcases startAll_cons lib config p ps s with
      hall | ⟨t, hcall, hall⟩ | ⟨t, hcall, hall⟩ | ⟨t, -, hall⟩
    · rw [hall] at h
      obtain ⟨hordered, hfresh⟩ := ih h
      refine ⟨hordered, fun q hq => ?_⟩
      have hle := hfresh q hq
      omega
    · rw [hall] at h
      obtain ⟨rest, hrest, rfl⟩ := Option.map_eq_some_iff.mp h
      obtain ⟨hordered, hfresh⟩ := ih hrest
      rw [made_of_callStart hcall, hmade] at hfresh
      refine ⟨List.pairwise_cons.mpr ⟨fun id hid => ?_, hordered⟩, fun q hq => ?_⟩
      · obtain ⟨q, hq, rfl⟩ := List.mem_map.mp hid
        exact hfresh q hq
      · obtain rfl | hq := List.mem_cons.mp hq
        · exact le_rfl
        · have hle := hfresh q hq
          omega
    · rw [hall] at h
      obtain ⟨hordered, hfresh⟩ := ih h
      rw [callStop_made, made_of_callStart hcall, hmade] at hfresh
      refine ⟨hordered, fun q hq => ?_⟩
      have hle := hfresh q hq
      omega
    · rw [hall] at h
      cases h

/-- What the loop started is live, and so is what was live before. -/
theorem startAll_kept (hserves : lib.available = true → s.scheduler ≠ none)
    (hledger : Ledger s live) (hjobs : Scheduled s live) (ps : List Plugin)
    (h : (State.startAll lib config ps s).2 = some active) :
    Ledger (State.startAll lib config ps s).1 (live ++ active) ∧
      Scheduled (State.startAll lib config ps s).1 (live ++ active) := by
  induction ps generalizing s live active with
  | nil =>
    cases h
    rw [List.append_nil]
    exact ⟨hledger, hjobs⟩
  | cons p ps ih =>
    set r : Running := ⟨s.made.length, p, priorityOf config p⟩ with hr
    have hjobs' : Scheduled (s.make p) live := hjobs.make p
    have hmade : (s.make p).made[r.id]? = some r.plugin := List.getElem?_concat_length
    have hstarted : Ledger ((s.make p).record (.start r.id)) (live ++ [r]) :=
      (hledger.make p).start hmade (hledger.fresh _ le_rfl)
    have hscheduler : ((s.make p).callStart lib r.id p).1.scheduler = s.scheduler :=
      (untouched_callStart (s.make p) lib r.id p).scheduler
    rcases startAll_cons lib config p ps s with
      hall | ⟨t, hcall, hall⟩ | ⟨t, hcall, hall⟩ | ⟨t, -, hall⟩
    · rw [hall] at h ⊢
      exact ih (s := s.make p) hserves (hledger.make p) hjobs' h
    · rw [hall] at h ⊢
      obtain ⟨rest, hrest, rfl⟩ := Option.map_eq_some_iff.mp h
      have hsame : t.made = (s.make p).made := made_of_callStart hcall
      have hled : Ledger t (live ++ [r]) := hstarted.congr hsame (calls_of_callStart hcall)
      have hjob : Scheduled ((s.make p).callStart lib r.id p).1 (live ++ [r]) :=
        hjobs'.callStart hserves r
      rw [hcall] at hscheduler hjob
      have hboth := ih (hscheduler ▸ hserves) hled hjob hrest
      rw [List.append_assoc] at hboth
      exact hboth
    · rw [hall] at h ⊢
      have hsame : (t.callStop r.id p).made = (s.make p).made :=
        (callStop_made t r.id p).trans (made_of_callStart hcall)
      have hled : Ledger (t.callStop r.id p) live := by
        have hboth := (hstarted.perm (List.perm_append_singleton r live)).stop
        refine hboth.congr hsame ?_
        rw [callStop_calls, State.record, calls_of_callStart hcall]
        rfl
      have hjob : Scheduled (((s.make p).callStart lib r.id p).1.callStop r.id p) live :=
        hjobs'.failed hserves hmade (congrArg Prod.snd hcall)
      rw [hcall] at hscheduler hjob
      have hstill := (untouched_callStop t r.id p).scheduler.trans hscheduler
      exact ih (hstill ▸ hserves) hled hjob h
    · rw [hall] at h
      cases h

/-! ## The threads -/

/-- Only the current thread has not been told to stop. -/
def Threads (s : State) : Prop :=
  ∀ k t, s.threads[k]? = some t → t.alive = true → t.told = false → s.scheduler = some k

theorem Threads.congr (h : Threads s) (hscheduler : t.scheduler = s.scheduler)
    (hthreads : t.threads = s.threads) : Threads t := by
  intro k u hk hyes htold
  rw [hthreads] at hk
  rw [hscheduler]
  exact h k u hk hyes htold

theorem startGlobalScheduler_spec (h : Threads s) (lib : Library) :
    Threads (s.startGlobalScheduler lib) ∧
      (lib.available = true → (s.startGlobalScheduler lib).scheduler ≠ none) ∧
      ∃ scheduler threads, s.startGlobalScheduler lib =
        { s with scheduler := scheduler, threads := threads } ∧
        (scheduler = none → s.scheduler = none) := by
  unfold State.startGlobalScheduler
  split_ifs with hlib halive
  · refine ⟨h, fun hyes => ?_, s.scheduler, s.threads, rfl, id⟩
    simp [hyes] at hlib
  · refine ⟨h, fun _ hnone => ?_, s.scheduler, s.threads, rfl, id⟩
    rw [hnone] at halive
    exact absurd halive Bool.false_ne_true
  · refine ⟨fun k t hk hyes htold => ?_, fun _ => Option.some_ne_none _, _, _, rfl,
      fun hnone => absurd hnone (Option.some_ne_none _)⟩
    obtain hlt | hge := Nat.lt_or_ge k s.threads.length
    · have hold : s.threads[k]? = some t := by
        rw [← hk]
        exact (List.getElem?_append_left hlt).symm
      rw [h k t hold hyes htold, Option.bind_some, hold, Option.any_some] at halive
      exact absurd hyes halive
    · have hlen := (List.getElem?_eq_some_iff.mp hk).1
      rw [List.length_append, List.length_singleton] at hlen
      exact congrArg some (by omega)

theorem Threads.stopGlobalScheduler (h : Threads s) : Threads s.stopGlobalScheduler := by
  unfold State.stopGlobalScheduler
  split
  · exact h
  · next j hj =>
    intro k t hk hyes htold
    exfalso
    change (s.threads.modify j _)[k]? = some t at hk
    rw [List.getElem?_modify] at hk
    obtain ⟨u, hu, rfl⟩ := Option.map_eq_some_iff.mp hk
    split_ifs at hyes htold with hjk
    have hcurrent := h k u hu hyes htold
    rw [hj] at hcurrent
    exact hjk (Option.some.inj hcurrent)

theorem Threads.ends (h : Threads s) (j : ℕ) :
    Threads { s with threads := s.threads.modify j fun t => { t with alive := false } } := by
  intro k t hk hyes htold
  change (s.threads.modify j _)[k]? = some t at hk
  rw [List.getElem?_modify] at hk
  obtain ⟨u, hu, rfl⟩ := Option.map_eq_some_iff.mp hk
  split_ifs at hyes htold
  exact h k u hu hyes htold

/-! ## Every run -/

/-- The invariant of the runs. -/
structure Inv (s : State) : Prop where
  ledger : s.torn = false → Ledger s s.active
  jobs : s.torn = false → Scheduled s s.active
  sorted : s.active.Pairwise fun a b => a.priority ≤ b.priority
  stable : ∀ k, ((s.active.filter fun r => r.priority = k).map Running.id).Pairwise (· < ·)
  unloaded : s.loaded = false → s.active = []
  threads : Threads s

theorem inv_init : Inv init where
  ledger _ := ⟨fun _ hr => absurd hr List.not_mem_nil, List.nodup_nil, fun _ => .inl rfl,
    fun _ => ⟨nofun, fun ⟨_, hr, _⟩ => absurd hr List.not_mem_nil⟩, fun _ _ => rfl⟩
  jobs _ := ⟨fun _ hj => absurd hj List.not_mem_nil, fun _ hj => absurd hj List.not_mem_nil,
    List.nodup_nil, fun _ => rfl⟩
  sorted := List.Pairwise.nil
  stable _ := List.Pairwise.nil
  unloaded _ := rfl
  threads _ _ hk := nomatch hk

theorem Inv.load (h : Inv s) (config : Py) (found : List Plugin) :
    Inv (s.loadPlugins lib config found) := by
  unfold State.loadPlugins
  split_ifs with hskip
  · exact h
  rw [Bool.or_eq_true, not_or, Bool.not_eq_true] at hskip
  have hnone : s.active = [] := h.unloaded hskip.1
  obtain ⟨hthreads, hserves, scheduler, threads, hstart, hsame⟩ :=
    startGlobalScheduler_spec h.threads lib
  have hrest := untouched_startAll lib config found (s.startGlobalScheduler lib)
  have hactive : (s.startGlobalScheduler lib).active = s.active := by rw [hstart]
  have htorn : (s.startGlobalScheduler lib).torn = s.torn := by rw [hstart]
  cases hall : State.startAll lib config found (s.startGlobalScheduler lib) with
  | mk t started =>
    rw [hall] at hrest
    have hlive : Threads t := hthreads.congr hrest.scheduler hrest.threads
    cases started with
    | none =>
      have hempty : t.active = [] := (hrest.active.trans hactive).trans hnone
      refine ⟨nofun, nofun, ?_, fun k => ?_, fun _ => hempty, hlive⟩
      · show t.active.Pairwise _
        rw [hempty]
        exact List.Pairwise.nil
      · show ((t.active.filter _).map _).Pairwise _
        rw [hempty]
        exact List.Pairwise.nil
    | some active =>
      have hkept (hwhole : s.torn = false) : Ledger t active ∧ Scheduled t active := by
        have hledger : Ledger (s.startGlobalScheduler lib) [] := by
          rw [← hnone]
          exact (h.ledger hwhole).congr (hstart ▸ rfl) (hstart ▸ rfl)
        have hjobs : Scheduled (s.startGlobalScheduler lib) [] := by
          have hold := h.jobs hwhole
          rw [hnone] at hold
          rw [hstart]
          exact ⟨hold.jobs, hold.named, hold.oneJob, fun hs => hold.idle (hsame hs)⟩
        have hboth := startAll_kept hserves hledger hjobs found (congrArg Prod.snd hall)
        rw [hall, List.nil_append] at hboth
        exact hboth
      have hwhole : t.torn = s.torn := hrest.torn.trans htorn
      have hperm : active.Perm (State.sortActive active) := (List.perm_insertionSort _ active).symm
      have hordered := (startAll_ordered found (congrArg Prod.snd hall)).1
      refine ⟨fun ht => ?_, fun ht => ?_,
        List.pairwise_insertionSort (KeyLe Running.priority) active, fun k => ?_, nofun, hlive⟩
      · exact ((hkept (hwhole.symm.trans ht)).1.perm hperm).congr rfl rfl
      · have hjobs := (hkept (hwhole.symm.trans ht)).2.mono fun q hq => hperm.mem_iff.mp hq
        exact ⟨hjobs.jobs, hjobs.named, hjobs.oneJob, hjobs.idle⟩
      · show (((State.sortActive active).filter _).map _).Pairwise _
        rw [State.sortActive, filter_insertionSort Running.priority active k]
        have hsub : List.Sublist ((active.filter fun q => q.priority = k).map Running.id)
            (active.map Running.id) := List.filter_sublist.map _
        exact hordered.sublist hsub

theorem stopAll_rest (live : List Running) (s : State) :
    ∃ jobs calls, (State.stopAll live s).1 = { s with jobs := jobs, calls := calls } ∧
      (s.jobs = [] → jobs = []) := by
  induction live generalizing s with
  | nil => exact ⟨s.jobs, s.calls, rfl, id⟩
  | cons r live ih =>
    have hempty : s.jobs = [] → (s.callStop r.id r.plugin).jobs = [] := by
      intro hs
      unfold State.callStop State.clearPluginJobs
      dsimp only
      split_ifs
      · exact hs
      · show List.filter _ s.jobs = []
        rw [hs, List.filter_nil]
      · exact hs
    obtain ⟨jobs, hstop⟩ := callStop_rest s r.id r.plugin
    obtain ⟨jobs', calls', hrest, hnil⟩ := ih (s.callStop r.id r.plugin)
    rw [State.stopAll]
    split_ifs
    · exact ⟨jobs, _, hstop, fun hs => by
        rw [← hempty hs, hstop]⟩
    · refine ⟨jobs', calls', ?_, fun hs => hnil (hempty hs)⟩
      rw [hrest, hstop]
      rfl

theorem stopAll_closed (h : Ledger s live) (hall : (State.stopAll live s).2 = true) :
    Ledger (State.stopAll live s).1 [] := by
  induction live generalizing s with
  | nil => exact h
  | cons r live ih =>
    rw [State.stopAll] at hall ⊢
    split_ifs at hall ⊢
    exact ih (h.stop.congr (callStop_made s r.id r.plugin) (callStop_calls s r.id r.plugin)) hall

theorem Inv.shutdown (h : Inv s) : Inv s.shutdownPlugins := by
  unfold State.shutdownPlugins
  split_ifs with hnone
  · refine ⟨fun ht => (h.ledger ht).congr rfl rfl, fun ht => ?_, h.sorted, h.stable,
      fun _ => List.isEmpty_iff.mp hnone, h.threads⟩
    exact ⟨(h.jobs ht).jobs, (h.jobs ht).named, (h.jobs ht).oneJob, (h.jobs ht).idle⟩
  obtain ⟨jobs, calls, hrest, hnil⟩ := stopAll_rest s.active s
  cases hall : State.stopAll s.active s with
  | mk t finished =>
    rw [hall] at hrest
    change t = _ at hrest
    have hlive : Threads t := by
      rw [hrest]
      exact h.threads
    cases finished with
    | false =>
      rw [hrest]
      exact ⟨nofun, nofun, h.sorted, h.stable, h.unloaded, h.threads⟩
    | true =>
      have hsame : t.stopGlobalScheduler.made = t.made ∧ t.stopGlobalScheduler.calls = t.calls ∧
          t.stopGlobalScheduler.torn = t.torn := by
        unfold State.stopGlobalScheduler
        split <;> exact ⟨rfl, rfl, rfl⟩
      have hwhole : t.stopGlobalScheduler.torn = s.torn := by
        rw [hsame.2.2, hrest]
      have hclosed (ht : s.torn = false) : Ledger t.stopGlobalScheduler [] := by
        have hledger := stopAll_closed (h.ledger ht) (congrArg Prod.snd hall)
        rw [hall] at hledger
        exact hledger.congr hsame.1 hsame.2.1
      -- without a scheduler there are no jobs that could be left
      have hjobs (ht : s.torn = false) : t.stopGlobalScheduler.jobs = [] := by
        unfold State.stopGlobalScheduler
        split
        · next hnone =>
          rw [hrest] at hnone ⊢
          exact hnil ((h.jobs ht).idle hnone)
        · rfl
      refine ⟨fun ht => (hclosed (hwhole.symm.trans ht)).congr rfl rfl, fun ht => ?_,
        List.Pairwise.nil, fun _ => List.Pairwise.nil, fun _ => rfl, hlive.stopGlobalScheduler⟩
      have hempty := hjobs (hwhole.symm.trans ht)
      refine ⟨fun j hj => ?_, fun j hj => ?_, ?_, fun _ => hempty⟩
      · change j ∈ t.stopGlobalScheduler.jobs at hj
        rw [hempty] at hj
        exact absurd hj List.not_mem_nil
      · change j ∈ t.stopGlobalScheduler.jobs at hj
        rw [hempty] at hj
        exact absurd hj List.not_mem_nil
      · show (t.stopGlobalScheduler.jobs.map _).Nodup
        rw [hempty]
        exact List.nodup_nil

theorem inv_step {act : Act} (h : Inv s) (hs : step lib s act = some t) : Inv t := by
  cases act with
  | load config found =>
    cases hs
    exact h.load config found
  | shutdown =>
    cases hs
    exact h.shutdown
  | threadEnds k =>
    simp only [step] at hs
    split at hs
    · split_ifs at hs
      cases hs
      refine ⟨fun ht => (h.ledger ht).congr rfl rfl, fun ht => ?_, h.sorted, h.stable, h.unloaded,
        h.threads.ends k⟩
      exact ⟨(h.jobs ht).jobs, (h.jobs ht).named, (h.jobs ht).oneJob, (h.jobs ht).idle⟩
    · cases hs

theorem Inv.sound (h : Inv s) : Sound s where
  sorted := h.sorted
  stable := h.stable
  unloaded := h.unloaded
  oneThread := h.threads
  accounted ht := ⟨(h.ledger ht).once, (h.ledger ht).running, (h.jobs ht).jobs, (h.jobs ht).oneJob⟩

/-- **In every state of every run** of loads and shutdowns: plugins are called in order of priority
and, for one priority, in the order in which they were found, and only the current thread runs jobs
without having been told to stop. Until a load or a shutdown is torn, every instance is started at
most once and stopped at most once after that, and exactly those that are started and not stopped
are called; every job belongs to one of these and has its name, unless its instance is wedged. -/
theorem lifecycle_sound (lib : Library) (acts : List Act) :
    Visited (step lib) Sound init acts :=
  have hall : AllSteps (step lib) (fun _ _ => True) init acts :=
    allSteps_of_forall (fun _ _ => trivial) init acts
  visited_of_invariant (fun _ _ _ h _ hs => inv_step h hs) (fun _ h => h.sound) inv_init hall

/-- A plugin that raises at the end of `start`, with a `stop` that does not clear its jobs, leaves
its job, and a shutdown without active plugins does not stop the scheduler that runs it. -/
theorem wedged_outlives :
    let lib : Library := ⟨true, fun _ => .accepted⟩
    let config : Py := .dict [("custom-plugins", .dict [("watch", .dict [("active", .bool true)])])]
    let plugin : Plugin := ⟨"watch", false, .none, .dict [("hours", .int 1)], ⟨true, .raised⟩,
      ⟨false, .returned⟩⟩
    (runActs (step lib) init [.load config [plugin], .shutdown]).map
      (fun s => (s.loaded, s.active.length, s.jobs, s.scheduler)) =
        some (false, 0, [⟨"watch", 0⟩], some 0) := by
  rfl

/-- A `start` that quits leaves the load: what was started before it has its calls and its jobs, and
is not called. -/
theorem torn_orphans :
    let lib : Library := ⟨true, fun _ => .accepted⟩
    let entry : Py := .dict [("active", .bool true)]
    let config : Py := .dict [("custom-plugins", .dict [("watch", entry), ("last", entry)])]
    let watch : Plugin := ⟨"watch", false, .none, .dict [("hours", .int 1)], ⟨true, .returned⟩,
      ⟨true, .returned⟩⟩
    let last : Plugin := ⟨"last", false, .none, .none, ⟨true, .quit⟩, ⟨true, .returned⟩⟩
    (runActs (step lib) init [.load config [watch, last], .shutdown]).map
      (fun s => (s.torn, s.active.length, s.jobs, s.calls)) =
        some (true, 0, [⟨"watch", 0⟩], [.start 0, .start 1]) := by
  rfl

end MMRelay.Plugins.Lifecycle
