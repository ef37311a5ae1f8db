import MMRelay.Lib.Run
import Mathlib

/-!
# Retransmission under a key

Clients send copies of a request under one key until they have an answer or give up. The server
carries a request out if it has not seen its key, and answers a key that it has seen as it did the
first time. Copies are lost, duplicated and delayed at will, and clients may share a key.

* `Entry`, `Client`, `Net`, `Act`, `step`: the server and its clients;
* `Sound`, **`sound_step`**: the invariant of the runs;
* `Sound.carried_le_one`, `Sound.carried_of_answer`, `Sound.key_of_answer`: what it says of a client.
-/

namespace MMRelay.Retransmit

variable {κ β ε : Type}

/-- A request that the server has carried out, with its answer. -/
structure Entry (κ β ε : Type) where
  key : κ
  payload : β
  answer : ε
  deriving DecidableEq

/-- A client: its request, how many copies it has sent, and its answer. -/
structure Client (κ β ε : Type) where
  key : κ
  payload : β
  sent : ℕ := 0
  answer : Option ε := none
  deriving DecidableEq

structure Net (κ β ε : Type) where
  ledger : List (Entry κ β ε)
  clients : List (Client κ β ε)
  deriving DecidableEq

def Net.init : Net κ β ε := ⟨[], []⟩

inductive Act (κ β ε : Type)
  | join (key : κ) (payload : β)
  | transmit (i : ℕ)
  /-- A copy of the request reaches the server; a new request gets this answer. -/
  | arrive (i : ℕ) (answer : ε)
  | receive (i : ℕ) (answer : ε)

/-! ## The invariant -/

/-- The server has carried out each key at most once and with an answer of its own, at the request
of a client, and answers are those of the server. -/
structure Sound (s : Net κ β ε) : Prop where
  entryKeys : (s.ledger.map Entry.key).Nodup
  entryAnswers : (s.ledger.map Entry.answer).Nodup
  owned : ∀ e ∈ s.ledger, ∃ c ∈ s.clients, c.key = e.key ∧ c.payload = e.payload ∧ 0 < c.sent
  answered : ∀ c ∈ s.clients, ∀ a, c.answer = some a →
    ∃ e ∈ s.ledger, e.key = c.key ∧ e.answer = a

theorem sound_init : Sound (Net.init : Net κ β ε) where
  entryKeys := List.nodup_nil
  entryAnswers := List.nodup_nil
  owned _ h := by cases h
  answered _ h := by cases h

section Set

variable {s : Net κ β ε} {i : ℕ} {c c' : Client κ β ε}

theorem Sound.owned_set (h : Sound s) (hc : s.clients[i]? = some c) (hkey : c'.key = c.key)
    (hpayload : c'.payload = c.payload) (hsent : c.sent ≤ c'.sent) :
    ∀ e ∈ s.ledger, ∃ d ∈ s.clients.set i c', d.key = e.key ∧ d.payload = e.payload ∧
      0 < d.sent := by
  intro e he
  obtain ⟨d, hd, hk, hp, hs⟩ := h.owned e he
  obtain ⟨j, hj⟩ := List.mem_iff_getElem?.mp hd
  by_cases hij : i = j
  · subst hij
    rw [hc] at hj
    cases hj
    refine ⟨c', List.mem_iff_getElem?.mpr ⟨i, ?_⟩, hkey.trans hk, hpayload.trans hp, by omega⟩
    rw [List.getElem?_set_self (List.getElem?_eq_some_iff.mp hc).1]
  · refine ⟨d, List.mem_iff_getElem?.mpr ⟨j, ?_⟩, hk, hp, hs⟩
    rw [List.getElem?_set_ne hij, hj]

/-- Clients with the same answer have the same key. -/
theorem Sound.key_of_answer (h : Sound s) (hc : c ∈ s.clients) (hd : c' ∈ s.clients) {a : ε}
    (ha : c.answer = some a) (hb : c'.answer = some a) : c.key = c'.key := by
  obtain ⟨e, he, hkey, hanswer⟩ := h.answered c hc a ha
  obtain ⟨e', he', hkey', hanswer'⟩ := h.answered c' hd a hb
  obtain rfl := List.inj_on_of_nodup_map h.entryAnswers he he' (hanswer.trans hanswer'.symm)
  exact hkey.symm.trans hkey'

end Set

/-! ## What a client can rely on -/

section Clients

variable [DecidableEq κ]

/-- The requests that the server has carried out for a client. -/
def carried (s : Net κ β ε) (c : Client κ β ε) : List (Entry κ β ε) :=
  s.ledger.filter fun e => decide (e.key = c.key)

variable {s : Net κ β ε} {c : Client κ β ε} {a : ε}

/-- A request is carried out at most once, however often it is sent. -/
theorem Sound.carried_le_one (h : Sound s) (c : Client κ β ε) : (carried s c).length ≤ 1 := by
  have hnodup : ((carried s c).map Entry.key).Nodup :=
    (List.filter_sublist.map Entry.key).nodup h.entryKeys
  have hall : ∀ k ∈ (carried s c).map Entry.key, k = c.key := by
    intro k hk
    obtain ⟨e, he, rfl⟩ := List.mem_map.mp hk
    exact of_decide_eq_true (List.mem_filter.mp he).2
  rw [← List.length_map (f := Entry.key)]
  have hsub : (carried s c).map Entry.key ⊆ [c.key] :=
    fun k hk => List.mem_singleton.mpr (hall k hk)
  exact hnodup.length_le_of_subset hsub

/-- An answer is that of the one request that was carried out. -/
theorem Sound.carried_of_answer (h : Sound s) (hc : c ∈ s.clients) (ha : c.answer = some a) :
    ∃ b, carried s c = [⟨c.key, b, a⟩] := by
  obtain ⟨e, he, hkey, hanswer⟩ := h.answered c hc a ha
  have hmem : e ∈ carried s c := List.mem_filter.mpr ⟨he, decide_eq_true hkey⟩
  obtain ⟨x, hx⟩ := List.length_eq_one_iff.mp
    (le_antisymm (h.carried_le_one c) (List.length_pos_of_mem hmem))
  rw [hx, List.mem_singleton] at hmem
  refine ⟨e.payload, ?_⟩
  rw [hx, ← hmem, ← hkey, ← hanswer]

end Clients

/-! ## The steps -/

variable [DecidableEq κ]

variable [DecidableEq ε]

def step (s : Net κ β ε) : Act κ β ε → Option (Net κ β ε)
  | .join k b => some { s with clients := s.clients ++ [{ key := k, payload := b }] }
  | .transmit i =>
    match s.clients[i]? with
    | none => none
    | some c => some { s with clients := s.clients.set i { c with sent := c.sent + 1 } }
  | .arrive i a =>
    match s.clients[i]? with
    | none => none
    | some c =>
      if c.sent = 0 then none
      else if c.key ∈ s.ledger.map Entry.key then some s
      else if a ∈ s.ledger.map Entry.answer then none
      else some { s with ledger := s.ledger ++ [⟨c.key, c.payload, a⟩] }
  | .receive i a =>
    match s.clients[i]? with
    | none => none
    | some c =>
      if a ∈ (carried s c).map Entry.answer then
        some { s with clients := s.clients.set i { c with answer := some a } }
      else none

section Inversion

variable {s s' : Net κ β ε} {i : ℕ} {x : ε}

theorem step_join {k : κ} {b : β} (h : step s (.join k b) = some s') :
    s' = { s with clients := s.clients ++ [{ key := k, payload := b }] } :=
  (Option.some.inj h).symm

theorem step_transmit (h : step s (.transmit i) = some s') :
    ∃ c, s.clients[i]? = some c ∧
      s' = { s with clients := s.clients.set i { c with sent := c.sent + 1 } } := by
  dsimp only [step] at h
  cases hc : s.clients[i]? with
  | none => simp [hc] at h
  | some c =>
    simp only [hc] at h
    exact ⟨c, rfl, (Option.some.inj h).symm⟩

theorem step_arrive (h : step s (.arrive i x) = some s') :
    ∃ c, s.clients[i]? = some c ∧ c.sent ≠ 0 ∧
      ((c.key ∈ s.ledger.map Entry.key ∧ s' = s) ∨
        (c.key ∉ s.ledger.map Entry.key ∧ x ∉ s.ledger.map Entry.answer ∧
          s' = { s with ledger := s.ledger ++ [⟨c.key, c.payload, x⟩] })) := by
  dsimp only [step] at h
  cases hc : s.clients[i]? with
  | none => simp [hc] at h
  | some c =>
    simp only [hc] at h
    split_ifs at h with hsent hkey hx
    · exact ⟨c, rfl, hsent, Or.inl ⟨hkey, (Option.some.inj h).symm⟩⟩
    · exact ⟨c, rfl, hsent, Or.inr ⟨hkey, hx, (Option.some.inj h).symm⟩⟩

theorem step_receive (h : step s (.receive i x) = some s') :
    ∃ c, s.clients[i]? = some c ∧ x ∈ (carried s c).map Entry.answer ∧
      s' = { s with clients := s.clients.set i { c with answer := some x } } := by
  dsimp only [step] at h
  cases hc : s.clients[i]? with
  | none => simp [hc] at h
  | some c =>
    simp only [hc] at h
    split_ifs at h with hx
    exact ⟨c, rfl, hx, (Option.some.inj h).symm⟩

/-- The server forgets nothing. -/
theorem ledger_step {a : Act κ β ε} (h : step s a = some s') : s.ledger ⊆ s'.ledger := by
  cases a with
  | join k b =>
    rw [step_join h]
    exact List.Subset.refl _
  | transmit i =>
    obtain ⟨c, -, rfl⟩ := step_transmit h
    exact List.Subset.refl _
  | arrive i x =>
    obtain ⟨c, -, -, ⟨-, rfl⟩ | ⟨-, -, rfl⟩⟩ := step_arrive h
    · exact List.Subset.refl _
    · exact List.subset_append_left _ _
  | receive i x =>
    obtain ⟨c, -, -, rfl⟩ := step_receive h
    exact List.Subset.refl _

end Inversion

/-- **One step** keeps the invariant. -/
theorem sound_step {s s' : Net κ β ε} {a : Act κ β ε} (h : Sound s) (hs : step s a = some s') :
    Sound s' := by
  cases a with
  | join k b =>
    obtain rfl := step_join hs
    refine ⟨h.entryKeys, h.entryAnswers, fun e he => ?_, fun c hc a ha => ?_⟩
    · obtain ⟨c, hc, hrest⟩ := h.owned e he
      exact ⟨c, List.mem_append_left _ hc, hrest⟩
    · rcases List.mem_append.mp hc with hold | hnew
      · exact h.answered c hold a ha
      · rw [List.mem_singleton.mp hnew] at ha
        cases ha
  | transmit i =>
    obtain ⟨c, hc, rfl⟩ := step_transmit hs
    refine ⟨h.entryKeys, h.entryAnswers, h.owned_set hc rfl rfl (by simp), fun d hd a ha => ?_⟩
    rcases List.mem_or_eq_of_mem_set hd with hold | rfl
    · exact h.answered d hold a ha
    · exact h.answered c (List.mem_of_getElem? hc) a ha
  | arrive i x =>
    obtain ⟨c, hc, hsent, ⟨hkey, rfl⟩ | ⟨hkey, hx, rfl⟩⟩ := step_arrive hs
    · exact h
    refine ⟨?_, ?_, fun e he => ?_, fun d hd a ha => ?_⟩
    · rw [List.map_append, List.map_singleton]
      exact h.entryKeys.append (List.nodup_singleton _) (List.disjoint_singleton.mpr hkey)
    · rw [List.map_append, List.map_singleton]
      exact h.entryAnswers.append (List.nodup_singleton _) (List.disjoint_singleton.mpr hx)
    · rcases List.mem_append.mp he with hold | hnew
      · exact h.owned e hold
      · rw [List.mem_singleton.mp hnew]
        exact ⟨c, List.mem_of_getElem? hc, rfl, rfl, Nat.pos_of_ne_zero hsent⟩
    · obtain ⟨e, he, hrest⟩ := h.answered d hd a ha
      exact ⟨e, List.mem_append_left _ he, hrest⟩
  | receive i x =>
    obtain ⟨c, hc, hx, rfl⟩ := step_receive hs
    refine ⟨h.entryKeys, h.entryAnswers, h.owned_set hc rfl rfl le_rfl, fun d hd a ha => ?_⟩
    rcases List.mem_or_eq_of_mem_set hd with hold | rfl
    · exact h.answered d hold a ha
    · obtain ⟨e, he, rfl⟩ := List.mem_map.mp hx
      obtain ⟨hmem, hkey⟩ := List.mem_filter.mp he
      cases ha
      exact ⟨e, hmem, of_decide_eq_true hkey, rfl⟩

end MMRelay.Retransmit
