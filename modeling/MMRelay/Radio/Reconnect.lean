import Mathlib
import MMRelay.Lib.Run

/-!
# Lost connections and reconnects

The connection-lost handler and the `reconnect` coroutine (`meshtastic/events.py`) against the
connect attempts of the executor threads (`meshtastic/connection.py`), while no shutdown is in
progress and the event loop can be used. What is done while `meshtastic_lock` is held is one step,
or a few steps between which the lock stays taken.

* `State`, `Act`, `step`: the globals, the one connect attempt in progress, the coroutine and the
  handler;
* `State.lost`: a connection-lost event has named the published client since its publication;
* `window`: `reconnect` has its new client and has not cleared `reconnecting` yet;
* **`no_lost_disconnect`**: outside that window no event is lost.
-/

namespace MMRelay.Radio

/-! ## The parties -/

/-- Who calls `connect_meshtastic`: `reconnect`, `main` at startup, or a plugin. -/
inductive Caller
  | reconnect
  | startup
  | other (force : Bool)
  deriving DecidableEq

/-- `force_connect`. -/
def Caller.force : Caller → Bool
  | .reconnect => true
  | .startup => false
  | .other force => force

/-- Where a connect attempt is. -/
inductive Phase
  /-- Before the checks at the top of `_connect_meshtastic_impl`. -/
  | entering
  /-- Before the section that closes the previous client. -/
  | replacing
  /-- In the retry loop, with no client of its own. -/
  | constructing
  /-- With a new client, before the section that publishes it. -/
  | ready (k : ℕ)
  /-- The client is published, and `meshtastic_lock` is held. -/
  | settingUp (k : ℕ)
  /-- The setup raised: before `_rollback_connect_attempt_state`. -/
  | failed (k : ℕ)
  /-- Before `return facade.meshtastic_client`. -/
  | done
  /-- With the value it returns, before the next attempt may start. -/
  | leaving (result : Option ℕ)
  deriving DecidableEq

structure Attempt where
  caller : Caller
  phase : Phase
  deriving DecidableEq

/-- The `reconnect` coroutine: it sleeps, awaits its connect call, or is about to finish. -/
inductive Coroutine
  | idle
  | sleeping
  | waiting
  | clearing
  deriving DecidableEq

/-- A connection-lost handler that goes on, with `meshtastic_lock` held. -/
inductive Handler
  | tearing
  | scheduling
  deriving DecidableEq

structure State where
  /-- `meshtastic_client`, by its identity. -/
  client : Option ℕ := none
  activeClientId : Option ℕ := none
  reconnecting : Bool := false
  subscribed : Bool := false
  attempt : Option Attempt := none
  coroutine : Coroutine := .idle
  handler : Option Handler := none
  /-- The result of its connect call that `main` has still to store. -/
  startup : Option (Option ℕ) := none
  /-- An event has named the published client since its publication. -/
  lost : Bool := false
  deriving DecidableEq

namespace State

variable (s : State)

/-- `meshtastic_lock` is not held. -/
def lockFree : Bool :=
  s.handler.isNone && s.attempt.all fun a =>
    match a.phase with
    | .settingUp _ => false
    | _ => true

/-- No client is published. -/
def unpublish : State := { s with client := none, activeClientId := none, lost := false }

def publish (k : ℕ) : State := { s with client := some k, activeClientId := some k, lost := false }

def goto (c : Caller) (p : Phase) : State := { s with attempt := some ⟨c, p⟩ }

/-- The handler returns before it does anything. -/
def ignores (i : Option ℕ) : Bool :=
  i.isSome && s.client.isNone && s.subscribed ||
    i.isSome && s.client.isSome && decide (i ≠ s.activeClientId.or s.client) ||
    s.reconnecting

end State

/-! ## Steps -/

inductive Act
  /-- `on_lost_meshtastic_connection` with this interface, up to its decision. -/
  | lost (i : Option ℕ)
  | tear
  | schedule
  | wake
  /-- The connect call of `reconnect` gives up waiting for another attempt. -/
  | timeout
  | enter (c : Caller)
  | check
  /-- The previous client is closed; `ok` unless the configuration is incomplete. -/
  | replace (ok : Bool)
  | construct (k : ℕ)
  | constructFail (retry : Bool)
  | publish
  /-- The setup raises, before or after the callbacks are subscribed. -/
  | setupFail (subscribed : Bool)
  | setupDone
  | rollback (retry : Bool)
  | read
  | ret
  /-- The `finally` clause of `reconnect`. -/
  | clear
  /-- `main` stores the result of its connect call. -/
  | assign
  deriving DecidableEq

/-- After a failure the loop goes on, or the attempt ends without a client. -/
def afterFailure (retry : Bool) : Phase := if retry then .constructing else .leaving none

/-- `_connect_meshtastic_impl`, section by section. -/
def stepAttempt (s : State) (c : Caller) : Phase → Act → Option State
  | .entering, .check =>
    some (s.goto c (if s.reconnecting && !c.force then .leaving none else .replacing))
  | .replacing, .replace ok =>
    if !s.lockFree then none
    else if s.client.isSome && !c.force then some (s.goto c (.leaving s.client))
    else some (s.unpublish.goto c (if ok then .constructing else .leaving none))
  | .constructing, .construct k => some (s.goto c (.ready k))
  | .constructing, .constructFail retry => some (s.goto c (afterFailure retry))
  | .ready _, .constructFail retry => some (s.goto c (afterFailure retry))
  | .ready k, .publish => if s.lockFree then some ((s.publish k).goto c (.settingUp k)) else none
  | .settingUp k, .setupFail sub =>
    some ({ s with subscribed := s.subscribed || sub }.goto c (.failed k))
  | .settingUp _, .setupDone => some ({ s with subscribed := true }.goto c .done)
  | .failed k, .rollback retry =>
    if !s.lockFree then none
    else some ((if s.client = some k then s.unpublish else s).goto c (afterFailure retry))
  | .done, .read => some (s.goto c (.leaving s.client))
  | .leaving r, .ret =>
    let s' := { s with attempt := none }
    match c with
    | .reconnect => some { s' with coroutine := if r.isSome then .clearing else .sleeping }
    | .startup => some { s' with startup := some r }
    | .other _ => some s'
  | _, _ => none

/-- One step; `none` if the party is elsewhere or has to wait. -/
def step (s : State) : Act → Option State
  | .lost i =>
    if !s.lockFree then none
    else
      let s' := { s with lost := s.lost || i.isSome && decide (i = s.client) }
      some (if s.ignores i then s' else { s' with handler := some .tearing })
  | .tear =>
    if s.handler = some .tearing then some { s.unpublish with handler := some .scheduling } else none
  | .schedule =>
    if s.handler = some .scheduling then
      some { s with reconnecting := true, coroutine := .sleeping, handler := none }
    else none
  | .wake => if s.coroutine = .sleeping then some { s with coroutine := .waiting } else none
  | .timeout =>
    if s.coroutine = .waiting ∧ s.attempt.all (fun a => decide (a.caller ≠ .reconnect)) then
      some { s with coroutine := .sleeping }
    else none
  | .enter c =>
    if s.attempt = none ∧ (c = .reconnect → s.coroutine = .waiting) then some (s.goto c .entering)
    else none
  | .clear =>
    if s.coroutine = .clearing then some { s with reconnecting := false, coroutine := .idle }
    else none
  | .assign =>
    match s.startup with
    | some r => some { s with client := r, startup := none }
    | none => none
  | a =>
    match s.attempt with
    | some ⟨c, p⟩ => stepAttempt s c p a
    | none => none

/-- `reconnect` has its client, and `reconnecting` is still set. -/
def window (s : State) : Bool :=
  decide (s.coroutine = .clearing) || s.attempt.any fun a =>
    match a with
    | ⟨.reconnect, .done⟩ | ⟨.reconnect, .leaving _⟩ => true
    | _ => false

/-- No event names the published client in the window, and `main` stores the published client. -/
def Timely (s : State) : Act → Prop
  | .lost i => i.isSome ∧ i = s.client → window s = false
  | .assign => s.startup = some s.client
  | _ => True

/-- No disconnect is lost: unless the coroutine or a handler is at work, no event has named the
published client. -/
def Attached (s : State) : Prop := s.reconnecting = false → s.handler = none → s.lost = false

/-! ## The invariant -/

variable {s s' : State} {a : Act} {c : Caller} {p : Phase}

/-- The attempt has no client of its own yet. -/
def Phase.empty : Phase → Bool
  | .constructing | .ready _ => true
  | _ => false

/-- The client that the attempt has published. -/
def Phase.owned : Phase → Option ℕ
  | .settingUp k | .failed k => some k
  | _ => none

/-- The attempt will still close the published client. -/
def Phase.closes : Phase → Bool
  | .entering | .replacing | .failed _ => true
  | _ => false

structure Inv (s : State) : Prop where
  ids : s.activeClientId = s.client
  active : s.reconnecting = true ↔ s.coroutine ≠ .idle
  handler : s.handler ≠ none → s.reconnecting = false
  own : ∀ p, s.attempt = some ⟨.reconnect, p⟩ → s.coroutine = .waiting
  absent : ∀ p, s.attempt = some ⟨.reconnect, p⟩ → p.empty = true → s.client = none
  owned : ∀ p k, s.attempt = some ⟨.reconnect, p⟩ → p.owned = some k →
    s.client = none ∨ s.client = some k
  published : s.lost = true → s.client.isSome = true
  /-- An event is handled, or the coroutine has still to close the client. -/
  pending : s.lost = true → s.handler = some .tearing ∨ s.coroutine = .sleeping ∨
    s.coroutine = .waiting ∧ ∀ p, s.attempt = some ⟨.reconnect, p⟩ → p.closes = true

theorem inv_init : Inv {} where
  ids := rfl
  active := by decide
  handler h := absurd rfl h
  own := nofun
  absent := nofun
  owned := nofun
  published := nofun
  pending := nofun

theorem Inv.unpublish (h : Inv s) : Inv s.unpublish where
  ids := rfl
  active := h.active
  handler := h.handler
  own := h.own
  absent _ _ _ := rfl
  owned _ _ _ _ := .inl rfl
  published hl := by cases hl
  pending hl := by cases hl

theorem Inv.goto (h : Inv s) (hat : s.attempt = some ⟨c, p⟩) {p' : Phase}
    (habsent : c = .reconnect → p'.empty = true → s.client = none)
    (howned : c = .reconnect → ∀ k, p'.owned = some k → s.client = none ∨ s.client = some k)
    (hpend : s.lost = true → c = .reconnect → p'.closes = true) : Inv (s.goto c p') where
  ids := h.ids
  active := h.active
  handler := h.handler
  own q hq := by
    injection hq with hq
    injection hq with hc _
    subst hc
    exact h.own p hat
  absent q hq hempty := by
    injection hq with hq
    injection hq with hc hp
    subst hp
    exact habsent hc hempty
  owned q k hq hk := by
    injection hq with hq
    injection hq with hc hp
    subst hp
    exact howned hc k hk
  published := h.published
  pending hl := by
    rcases h.pending hl with hh | hs | ⟨hw, -⟩
    · exact .inl hh
    · exact .inr (.inl hs)
    · refine .inr (.inr ⟨hw, fun q hq => ?_⟩)
      injection hq with hq
      injection hq with hc hp
      subst hp
      exact hpend hl hc

/-- If an event is pending, then the own attempt of `reconnect` will close the client. -/
theorem Inv.closes (h : Inv s) (hl : s.lost = true) (hat : s.attempt = some ⟨.reconnect, p⟩) :
    p.closes = true := by
  have hw := h.own p hat
  rcases h.pending hl with hh | hs | ⟨-, hp⟩
  · have hrec : s.reconnecting = true := h.active.mpr (by rw [hw]; nofun)
    rw [h.handler (by rw [hh]; nofun)] at hrec
    cases hrec
  · rw [hw] at hs
    cases hs
  · exact hp p hat

theorem Inv.subscribe (h : Inv s) (b : Bool) : Inv { s with subscribed := b } :=
  ⟨h.ids, h.active, h.handler, h.own, h.absent, h.owned, h.published, h.pending⟩

theorem Inv.leave (h : Inv s) : Inv { s with attempt := none } where
  ids := h.ids
  active := h.active
  handler := h.handler
  own _ hq := by cases hq
  absent _ hq := by cases hq
  owned _ _ hq := by cases hq
  published := h.published
  pending hl := by
    rcases h.pending hl with hh | hs | ⟨hw, -⟩
    · exact .inl hh
    · exact .inr (.inl hs)
    · exact .inr (.inr ⟨hw, fun _ hq => by cases hq⟩)

theorem Inv.afterFailure (h : Inv s) (hat : s.attempt = some ⟨c, p⟩) (retry : Bool)
    (habsent : c = .reconnect → s.client = none) :
    Inv (s.goto c (Radio.afterFailure retry)) := by
  have hlost : s.lost = true → c ≠ .reconnect := fun hl hc => by
    have hsome := h.published hl
    rw [habsent hc] at hsome
    cases hsome
  refine h.goto hat (fun hc _ => habsent hc) (fun hc _ _ => .inl (habsent hc)) ?_
  exact fun hl hc => absurd hc (hlost hl)

theorem inv_replace {ok : Bool} (h : Inv s) (hat : s.attempt = some ⟨c, .replacing⟩)
    (hs : stepAttempt s c .replacing (.replace ok) = some s') : Inv s' := by
  simp only [stepAttempt] at hs
  split at hs
  · cases hs
  split at hs
  · rename_i hkeep
    cases hs
    refine h.goto hat nofun nofun fun _ hc => ?_
    subst hc
    simp [Caller.force] at hkeep
  · cases hs
    have hat' : s.unpublish.attempt = some ⟨c, .replacing⟩ := hat
    exact h.unpublish.goto hat' (fun _ _ => rfl) (fun _ _ _ => .inl rfl) nofun

theorem inv_publish {k : ℕ} (h : Inv s) (hat : s.attempt = some ⟨c, .ready k⟩) :
    Inv ((s.publish k).goto c (.settingUp k)) where
  ids := rfl
  active := h.active
  handler := h.handler
  own q hq := by
    injection hq with hq
    injection hq with hc _
    subst hc
    exact h.own _ hat
  absent q hq hempty := by
    injection hq with hq
    injection hq with _ hp
    subst hp
    cases hempty
  owned q j hq hj := by
    injection hq with hq
    injection hq with _ hp
    subst hp
    exact .inr hj
  published hl := by cases hl
  pending hl := by cases hl

theorem inv_rollback {k : ℕ} {retry : Bool} (h : Inv s) (hat : s.attempt = some ⟨c, .failed k⟩) :
    Inv ((if s.client = some k then s.unpublish else s).goto c (afterFailure retry)) := by
  by_cases hk : s.client = some k
  · rw [if_pos hk]
    have hat' : s.unpublish.attempt = some ⟨c, .failed k⟩ := hat
    exact h.unpublish.afterFailure hat' retry fun _ => rfl
  · rw [if_neg hk]
    refine h.afterFailure hat retry fun hc => ?_
    subst hc
    exact (h.owned _ k hat rfl).resolve_right hk

theorem inv_ret {r : Option ℕ} (h : Inv s) (hat : s.attempt = some ⟨.reconnect, .leaving r⟩) :
    Inv { s with attempt := none, coroutine := if r.isSome then .clearing else .sleeping } := by
  have hrec : s.reconnecting = true := h.active.mpr (by rw [h.own _ hat]; nofun)
  have hlost : s.lost = false := by
    cases hl : s.lost with
    | false => rfl
    | true => cases h.closes hl hat
  refine ⟨h.ids, ⟨fun _ => ?_, fun _ => hrec⟩, h.handler, nofun, nofun, nofun, h.published,
    fun hl => ?_⟩
  · show (if r.isSome then Coroutine.clearing else .sleeping) ≠ .idle
    split <;> nofun
  · rw [hlost] at hl
    cases hl

theorem inv_stepAttempt (h : Inv s) (hat : s.attempt = some ⟨c, p⟩)
    (hs : stepAttempt s c p a = some s') : Inv s' := by
  have hclose : s.lost = true → c = .reconnect → p.closes = true := fun hl hc => by
    subst hc
    exact h.closes hl hat
  have hempty : p.empty = true → c = .reconnect → s.client = none := fun hp hc => by
    subst hc
    exact h.absent p hat hp
  unfold stepAttempt at hs
  split at hs
  · cases hs
    refine h.goto hat ?_ ?_ fun _ hc => ?_
    · split <;> nofun
    · split <;> nofun
    · subst hc
      simp [Caller.force, Phase.closes]
  · exact inv_replace h hat (by unfold stepAttempt; exact hs)
  · cases hs
    exact h.goto hat (fun hc _ => hempty rfl hc) nofun hclose
  · cases hs
    exact h.afterFailure hat _ (hempty rfl)
  · cases hs
    exact h.afterFailure hat _ (hempty rfl)
  · split at hs
    · cases hs
      exact inv_publish h hat
    · cases hs
  · cases hs
    rename_i k sub
    have hat' : State.attempt { s with subscribed := s.subscribed || sub } =
        some ⟨c, .settingUp k⟩ := hat
    refine (h.subscribe _).goto hat' nofun (fun hc j hj => ?_) fun _ _ => rfl
    subst hc
    exact h.owned _ j hat hj
  · cases hs
    exact (h.subscribe true).goto hat nofun nofun hclose
  · split at hs
    · cases hs
    · cases hs
      exact inv_rollback h hat
  · cases hs
    exact h.goto hat nofun nofun hclose
  · split at hs
    · cases hs
      exact inv_ret (s := s) h hat
    · cases hs
      have hl := h.leave
      exact ⟨hl.ids, hl.active, hl.handler, hl.own, hl.absent, hl.owned, hl.published, hl.pending⟩
    · cases hs
      exact h.leave
  · cases hs

theorem Inv.ignores_named (h : Inv s) {k : ℕ} (hk : s.client = some k)
    (hrec : s.reconnecting = false) : s.ignores (some k) = false := by
  simp [State.ignores, h.ids, hk, hrec]

/-- A free lock and a client that is named outside the window: the coroutine has still to close the
client. -/
theorem Inv.pending_of_named (h : Inv s) {k : ℕ} (hfree : s.lockFree = true)
    (hk : s.client = some k) (hrec : s.reconnecting = true) (hwin : window s = false) :
    s.coroutine = .sleeping ∨
      s.coroutine = .waiting ∧ ∀ p, s.attempt = some ⟨.reconnect, p⟩ → p.closes = true := by
  cases hco : s.coroutine with
  | idle => exact absurd hco (h.active.mp hrec)
  | sleeping => exact .inl rfl
  | clearing => simp [window, hco] at hwin
  | waiting =>
    refine .inr ⟨rfl, fun p hp => ?_⟩
    cases p with
    | entering | replacing | failed => rfl
    | constructing | ready =>
      have hnone := h.absent _ hp rfl
      rw [hk] at hnone
      cases hnone
    | settingUp => simp [State.lockFree, hp] at hfree
    | done | leaving => simp [window, hp] at hwin

theorem inv_lost {i : Option ℕ} (h : Inv s) (hg : Timely s (.lost i)) (hfree : s.lockFree = true) :
    Inv (let s' := { s with lost := s.lost || i.isSome && decide (i = s.client) }
      if s.ignores i then s' else { s' with handler := some .tearing }) := by
  have hhandler : s.handler = none := by
    simp only [State.lockFree, Bool.and_eq_true, Option.isNone_iff_eq_none] at hfree
    exact hfree.1
  dsimp only
  by_cases hnamed : i.isSome = true ∧ i = s.client
  · obtain ⟨k, rfl⟩ := Option.isSome_iff_exists.mp hnamed.1
    have hk : s.client = some k := hnamed.2.symm
    have hsome : s.client.isSome = true := by rw [hk]; rfl
    by_cases hrec : s.reconnecting = true
    · have hignore : s.ignores (some k) = true := by simp [State.ignores, hrec]
      have hpend := h.pending_of_named hfree hk hrec (hg hnamed)
      rw [if_pos hignore]
      exact ⟨h.ids, h.active, h.handler, h.own, h.absent, h.owned, fun _ => hsome,
        fun _ => .inr hpend⟩
    · have hrec : s.reconnecting = false := by simpa using hrec
      rw [h.ignores_named hk hrec]
      exact ⟨h.ids, h.active, fun _ => hrec, h.own, h.absent, h.owned, fun _ => hsome,
        fun _ => .inl rfl⟩
  · have hsame : (s.lost || i.isSome && decide (i = s.client)) = s.lost := by
      simp only [Bool.or_eq_left_iff_imp, Bool.and_eq_true, decide_eq_true_eq]
      exact fun hboth => absurd hboth hnamed
    rw [hsame]
    by_cases hignore : s.ignores i = true
    · rw [if_pos hignore]
      exact h
    · rw [if_neg hignore]
      have hrec : s.reconnecting = false := by
        simp only [State.ignores, Bool.or_eq_true, not_or, Bool.not_eq_true] at hignore
        exact hignore.2
      exact ⟨h.ids, h.active, fun _ => hrec, h.own, h.absent, h.owned, h.published,
        fun _ => .inl rfl⟩

theorem Inv.no_own (h : Inv s) (hne : s.coroutine ≠ .waiting) (p : Phase) :
    s.attempt ≠ some ⟨.reconnect, p⟩ :=
  fun hp => hne (h.own p hp)

theorem Inv.idle (h : Inv s) (hrec : s.reconnecting = false) : s.coroutine = .idle := by
  by_contra hne
  rw [h.active.mpr hne] at hrec
  cases hrec

theorem inv_tear (h : Inv s) (hh : s.handler = some .tearing) :
    Inv { s.unpublish with handler := some .scheduling } := by
  have hu := h.unpublish
  exact ⟨rfl, h.active, fun _ => h.handler (by rw [hh]; nofun), h.own, hu.absent, hu.owned,
    nofun, nofun⟩

theorem inv_schedule (h : Inv s) (hh : s.handler = some .scheduling) :
    Inv { s with reconnecting := true, coroutine := .sleeping, handler := none } := by
  have hidle : s.coroutine = .idle := h.idle (h.handler (by rw [hh]; nofun))
  have hown := h.no_own (by rw [hidle]; nofun)
  exact ⟨h.ids, ⟨fun _ => nofun, fun _ => rfl⟩, nofun, fun p hp => absurd hp (hown p), h.absent,
    h.owned, h.published, fun _ => .inr (.inl rfl)⟩

theorem inv_wake (h : Inv s) (hsl : s.coroutine = .sleeping) :
    Inv { s with coroutine := .waiting } := by
  have hrec : s.reconnecting = true := h.active.mpr (by rw [hsl]; nofun)
  have hown := h.no_own (by rw [hsl]; nofun)
  exact ⟨h.ids, ⟨fun _ => nofun, fun _ => hrec⟩, h.handler, fun _ _ => rfl, h.absent, h.owned,
    h.published, fun _ => .inr (.inr ⟨rfl, fun p hp => absurd hp (hown p)⟩)⟩

theorem inv_timeout (h : Inv s) (hw : s.coroutine = .waiting)
    (hnone : s.attempt.all (fun a => decide (a.caller ≠ .reconnect)) = true) :
    Inv { s with coroutine := .sleeping } := by
  have hrec : s.reconnecting = true := h.active.mpr (by rw [hw]; nofun)
  have hown : ∀ p, s.attempt ≠ some ⟨.reconnect, p⟩ := fun p hp => by
    simp [hp] at hnone
  exact ⟨h.ids, ⟨fun _ => nofun, fun _ => hrec⟩, h.handler, fun p hp => absurd hp (hown p),
    h.absent, h.owned, h.published, fun _ => .inr (.inl rfl)⟩

/-- An attempt that begins will close the client. -/
theorem inv_enter (h : Inv s) (hc : c = .reconnect → s.coroutine = .waiting) :
    Inv (s.goto c .entering) := by
  refine ⟨h.ids, h.active, h.handler, fun p hp => ?_, fun p hp he => ?_, fun p k hp hk => ?_,
    h.published, fun hl => ?_⟩
  · injection hp with hp
    injection hp with hcall _
    exact hc hcall
  · injection hp with hp
    injection hp with _ hph
    subst hph
    cases he
  · injection hp with hp
    injection hp with _ hph
    subst hph
    cases hk
  · rcases h.pending hl with hh | hsl | ⟨hw, -⟩
    · exact .inl hh
    · exact .inr (.inl hsl)
    · refine .inr (.inr ⟨hw, fun p hp => ?_⟩)
      injection hp with hp
      injection hp with _ hph
      subst hph
      rfl

theorem inv_clear (h : Inv s) (hcl : s.coroutine = .clearing) :
    Inv { s with reconnecting := false, coroutine := .idle } := by
  have hown := h.no_own (by rw [hcl]; nofun)
  refine ⟨h.ids, ⟨nofun, fun hne => absurd rfl hne⟩, fun _ => rfl,
    fun p hp => absurd hp (hown p), h.absent, h.owned, h.published, fun hl => ?_⟩
  rcases h.pending hl with hh | hsl | ⟨hw, -⟩
  · exact .inl hh
  · rw [hcl] at hsl
    cases hsl
  · rw [hcl] at hw
    cases hw

theorem inv_assign {r : Option ℕ} (h : Inv s) (hg : Timely s .assign) (hr : s.startup = some r) :
    Inv { s with client := r, startup := none } := by
  have hst : s.startup = some s.client := hg
  obtain rfl : r = s.client := Option.some.inj (hr.symm.trans hst)
  exact ⟨h.ids, h.active, h.handler, h.own, h.absent, h.owned, h.published, h.pending⟩

theorem inv_step (h : Inv s) (hg : Timely s a) (hs : step s a = some s') : Inv s' := by
  have hattempt : ∀ b, (match s.attempt with
      | some ⟨c, p⟩ => stepAttempt s c p b
      | none => none) = some s' → Inv s' := by
    intro b hb
    split at hb
    · rename_i c p hat
      exact inv_stepAttempt h hat hb
    · cases hb
  cases a with
  | lost i =>
    obtain ⟨hfree, hs⟩ := Option.ite_none_left_eq_some.mp hs
    cases hs
    exact inv_lost h hg (by simpa using hfree)
  | tear =>
    obtain ⟨hh, rfl⟩ := Option.ite_some_none_eq_some.mp hs
    exact inv_tear h hh
  | schedule =>
    obtain ⟨hh, rfl⟩ := Option.ite_some_none_eq_some.mp hs
    exact inv_schedule h hh
  | wake =>
    obtain ⟨hsl, rfl⟩ := Option.ite_some_none_eq_some.mp hs
    exact inv_wake h hsl
  | timeout =>
    obtain ⟨⟨hw, hnone⟩, rfl⟩ := Option.ite_some_none_eq_some.mp hs
    exact inv_timeout h hw hnone
  | enter c =>
    obtain ⟨⟨-, hc⟩, rfl⟩ := Option.ite_some_none_eq_some.mp hs
    exact inv_enter h hc
  | clear =>
    obtain ⟨hcl, rfl⟩ := Option.ite_some_none_eq_some.mp hs
    exact inv_clear h hcl
  | assign =>
    have hs : (match s.startup with
      | some r => some { s with client := r, startup := none }
      | none => none) = some s' := hs
    split at hs
    · rename_i r hr
      cases hs
      exact inv_assign h hg hr
    · cases hs
  | _ => exact hattempt _ hs

theorem Inv.attached (h : Inv s) : Attached s := by
  intro hrec hhandler
  cases hl : s.lost with
  | false => rfl
  | true =>
    have hidle := h.idle hrec
    rcases h.pending hl with hh | hsl | ⟨hw, -⟩
    · rw [hhandler] at hh
      cases hh
    · rw [hidle] at hsl
      cases hsl
    · rw [hidle] at hw
      cases hw

/-- **No disconnect is lost** in a run in which no event names the published client between the end
of the setup that `reconnect` asked for and the moment it clears `reconnecting`. -/
theorem no_lost_disconnect (as : List Act) (h : AllSteps step Timely {} as) :
    Visited step Attached {} as :=
  visited_of_invariant (fun _ _ _ h hg hs => inv_step h hg hs) (fun _ h => h.attached) inv_init h

instance decidableTimely (s : State) : ∀ a, Decidable (Timely s a)
  | .lost i => inferInstanceAs (Decidable (i.isSome ∧ i = s.client → window s = false))
  | .assign => inferInstanceAs (Decidable (s.startup = some s.client))
  | .tear | .schedule | .wake | .timeout | .enter _ | .check | .replace _ | .construct _
  | .constructFail _ | .publish | .setupFail _ | .setupDone | .rollback _ | .read | .ret
  | .clear => isTrue trivial

/-- `main` connects, the connection is lost, and `reconnect` publishes the client `2`. -/
def reconnectRun : List Act :=
  [.enter .startup, .check, .replace true, .construct 1, .publish, .setupDone, .read, .ret, .assign,
    .lost (some 1), .tear, .schedule, .wake, .enter .reconnect, .check, .replace true, .construct 2,
    .publish, .setupDone]

/-- The client `2` is lost after `reconnecting` is cleared. -/
theorem no_lost_disconnect_late :
    (runActs step {} (reconnectRun ++ [.read, .ret, .clear, .lost (some 2), .tear])).isSome = true ∧
      Visited step Attached {}
        (reconnectRun ++ [.read, .ret, .clear, .lost (some 2), .tear]) :=
  ⟨by decide +kernel, no_lost_disconnect _ (by decide +kernel)⟩

/-- The client `2` is lost before `reconnecting` is cleared: nothing tears it down. -/
theorem disconnect_in_window :
    ∃ s, runActs step {} (reconnectRun ++ [.lost (some 2), .read, .ret, .clear]) = some s ∧
      s.client = some 2 ∧ s.reconnecting = false ∧ s.handler = none ∧ s.attempt = none ∧
      s.lost = true := by
  refine ⟨_, rfl, ?_⟩
  decide +kernel

end MMRelay.Radio
