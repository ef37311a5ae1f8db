import Mathlib.Data.List.Basic
import Mathlib.Tactic.Common

/-!
# Runs of a labelled partial step

A system is a partial step function `step : σ → α → Option σ` on states and actions; `none` means
that the action is not enabled. `runActs` executes a list of actions, and `AllSteps` says that
every action of a run is taken in a state that meets a guard.

* `runActs_append`: runs are cut and extended at any point.
* **`runActs_induct`**, **`visited_of_invariant`**, **`allSteps_of_invariant`**: the invariant rule,
  for runs whose steps meet a guard.
* **`visited_iff_allSteps`**: a property that one step keeps exactly when the guard holds
  is true in every state of a run exactly when every step of the run meets the guard;
* **`visited_iff_allSteps_of_breaks`**: the same for what an invariant of these steps implies.
-/

namespace MMRelay

variable {σ α : Type} (step : σ → α → Option σ)

/-- Execute the actions in order; `none` as soon as one is not enabled. -/
def runActs : σ → List α → Option σ
  | s, [] => some s
  | s, a :: as => (step s a).bind fun s' => runActs s' as

/-- Every action of the run is taken in a state where the guard allows it. -/
def AllSteps (guard : σ → α → Prop) : σ → List α → Prop
  | _, [] => True
  | s, a :: as => ∀ s', step s a = some s' → guard s a ∧ AllSteps guard s' as

/-- Every state of the run, the first and the last included, has the property. -/
def Visited (P : σ → Prop) : σ → List α → Prop
  | s, [] => P s
  | s, a :: as => P s ∧ ∀ s', step s a = some s' → Visited P s' as

instance decidableAllSteps (guard : σ → α → Prop) [∀ s a, Decidable (guard s a)] :
    ∀ s as, Decidable (AllSteps step guard s as)
  | _, [] => isTrue trivial
  | s, a :: as =>
    match h : step s a with
    | none => isTrue fun s' hs' => by rw [h] at hs'; cases hs'
    | some t =>
      match decidableAllSteps guard t as, inferInstanceAs (Decidable (guard s a)) with
      | isTrue hall, isTrue hg => isTrue fun s' hs' => by
          rw [h] at hs'; cases hs'; exact ⟨hg, hall⟩
      | isFalse hall, _ => isFalse fun hn => hall (hn t h).2
      | _, isFalse hg => isFalse fun hn => hg (hn t h).1

@[simp] theorem runActs_nil (s : σ) : runActs step s [] = some s := rfl

@[simp] theorem runActs_cons (s : σ) (a : α) (as : List α) :
    runActs step s (a :: as) = (step s a).bind fun s' => runActs step s' as := rfl

theorem runActs_append (s : σ) (as bs : List α) :
    runActs step s (as ++ bs) = (runActs step s as).bind fun t => runActs step t bs := by
  induction as generalizing s with
  | nil => rfl
  | cons a as ih =>
    rw [List.cons_append, runActs_cons, runActs_cons]
    cases h : step s a with
    | none => rfl
    | some s' => exact ih s'

variable {step}

/-- **The invariant rule.** What holds at the start and is kept by every guarded step holds at the
end of every run whose steps meet the guard. -/
theorem runActs_induct {guard : σ → α → Prop} {P : σ → Prop}
    (hstep : ∀ s a s', P s → guard s a → step s a = some s' → P s') :
    ∀ {as : List α} {s t : σ}, P s → AllSteps step guard s as → runActs step s as = some t → P t
  | [], s, t, hs, _, hrun => by
    cases hrun
    exact hs
  | a :: as, s, t, hs, hall, hrun => by
    rw [runActs_cons, Option.bind_eq_some_iff] at hrun
    obtain ⟨s', hs', hrun⟩ := hrun
    obtain ⟨hg, hall⟩ := hall s' hs'
    exact runActs_induct hstep (hstep s a s' hs hg hs') hall hrun

theorem allSteps_of_mem {guard : σ → α → Prop} {as : List α} (h : ∀ a ∈ as, ∀ s, guard s a)
    (s : σ) : AllSteps step guard s as := by
  induction as generalizing s with
  | nil => trivial
  | cons a as ih =>
    intro s' _
    exact ⟨h a List.mem_cons_self s, ih (fun b hb => h b (List.mem_cons_of_mem a hb)) s'⟩

theorem allSteps_of_forall {guard : σ → α → Prop} (h : ∀ s a, guard s a) (s : σ) (as : List α) :
    AllSteps step guard s as :=
  allSteps_of_mem (fun a _ s => h s a) s

theorem allSteps_of_enabled {guard : σ → α → Prop} (h : ∀ s a s', step s a = some s' → guard s a)
    (s : σ) (as : List α) : AllSteps step guard s as := by
  induction as generalizing s with
  | nil => trivial
  | cons a as ih =>
    intro s' hs'
    exact ⟨h s a s' hs', ih s'⟩

/-- The rule for invariants that every step keeps. -/
theorem runActs_keeps {P : σ → Prop} (hstep : ∀ s a s', P s → step s a = some s' → P s')
    {as : List α} {s t : σ} (hs : P s) (hrun : runActs step s as = some t) : P t :=
  have hall : AllSteps step (fun _ _ => True) s as := allSteps_of_forall (fun _ _ => trivial) s as
  runActs_induct (fun s a s' hs _ => hstep s a s' hs) hs hall hrun

theorem AllSteps.mono {guard guard' : σ → α → Prop} (h : ∀ s a, guard s a → guard' s a) :
    ∀ {as : List α} {s : σ}, AllSteps step guard s as → AllSteps step guard' s as
  | [], _, _ => trivial
  | _ :: _, _, hall => fun s' hs' => ⟨h _ _ (hall s' hs').1, (hall s' hs').2.mono h⟩

theorem AllSteps.and {guard guard' : σ → α → Prop} :
    ∀ {as : List α} {s : σ}, AllSteps step guard s as → AllSteps step guard' s as →
      AllSteps step (fun s a => guard s a ∧ guard' s a) s as
  | [], _, _, _ => trivial
  | _ :: _, _, h, h' => fun s' hs' => ⟨⟨(h s' hs').1, (h' s' hs').1⟩, (h s' hs').2.and (h' s' hs').2⟩

/-- What an invariant of the guarded steps implies holds in every state of such a run. -/
theorem visited_of_invariant {guard : σ → α → Prop} {I P : σ → Prop}
    (hstep : ∀ s a s', I s → guard s a → step s a = some s' → I s') (hP : ∀ s, I s → P s) :
    ∀ {as : List α} {s : σ}, I s → AllSteps step guard s as → Visited step P s as
  | [], s, hs, _ => hP s hs
  | a :: as, s, hs, hall => by
    refine ⟨hP s hs, fun s' hs' => ?_⟩
    obtain ⟨hg, hall⟩ := hall s' hs'
    exact visited_of_invariant hstep hP (hstep s a s' hs hg hs') hall

/-- What an invariant of the guarded steps implies of a step holds of every step of such a run. -/
theorem allSteps_of_invariant {guard guard' : σ → α → Prop} {I : σ → Prop}
    (hstep : ∀ s a s', I s → guard s a → step s a = some s' → I s')
    (hP : ∀ s a s', I s → step s a = some s' → guard' s a) :
    ∀ {as : List α} {s : σ}, I s → AllSteps step guard s as → AllSteps step guard' s as
  | [], _, _, _ => trivial
  | a :: as, s, hs, hall => by
    intro s' hs'
    obtain ⟨hg, hall⟩ := hall s' hs'
    exact ⟨hP s a s' hs hs', allSteps_of_invariant hstep hP (hstep s a s' hs hg hs') hall⟩

theorem Visited.last {P : σ → Prop} : ∀ {as : List α} {s t : σ}, Visited step P s as →
    runActs step s as = some t → P t
  | [], s, t, hs, hrun => by
    cases hrun
    exact hs
  | a :: as, s, t, ⟨_, hv⟩, hrun => by
    rw [runActs_cons, Option.bind_eq_some_iff] at hrun
    obtain ⟨s', hs', hrun⟩ := hrun
    exact (hv s' hs').last hrun

/-- **First violation.** If, from a state with `P` and the invariant `J`, a step that meets `guard'`
leads to a state with `P` exactly when it meets `guard`, then in a run whose steps all meet `guard'`
all states have `P` exactly when all steps meet `guard`. -/
theorem visited_iff_allSteps_of_guarded {guard guard' : σ → α → Prop} {P J : σ → Prop}
    (hJ : ∀ s a s', J s → step s a = some s' → J s')
    (hstep : ∀ s a s', J s → P s → guard' s a → step s a = some s' → (P s' ↔ guard s a)) {s : σ}
    (hj : J s) (hs : P s) {as : List α} (hall' : AllSteps step guard' s as) :
    Visited step P s as ↔ AllSteps step guard s as := by
  induction as generalizing s with
  | nil => exact ⟨fun _ => trivial, fun _ => hs⟩
  | cons a as ih =>
    constructor
    · rintro ⟨_, hv⟩ s' hs'
      obtain ⟨hg', hall'⟩ := hall' s' hs'
      have hP : P s' := by
        have := hv s' hs'
        cases as with
        | nil => exact this
        | cons b bs => exact this.1
      exact ⟨(hstep s a s' hj hs hg' hs').mp hP, (ih (hJ s a s' hj hs') hP hall').mp (hv s' hs')⟩
    · intro hall
      refine ⟨hs, fun s' hs' => ?_⟩
      obtain ⟨hg, hall⟩ := hall s' hs'
      obtain ⟨hg', hall'⟩ := hall' s' hs'
      exact (ih (hJ s a s' hj hs') ((hstep s a s' hj hs hg' hs').mpr hg) hall').mpr hall

/-- **First violation** of what an invariant implies. If guarded steps keep the invariant, and every
other step from a state with it leads out of `P`, then all states have `P` exactly when all steps
meet the guard. -/
theorem visited_iff_allSteps_of_breaks {guard : σ → α → Prop} {I P : σ → Prop}
    (hstep : ∀ s a s', I s → guard s a → step s a = some s' → I s') (hP : ∀ s, I s → P s)
    (hbreaks : ∀ s a s', I s → step s a = some s' → P s' → guard s a) {s : σ} (hs : I s)
    (as : List α) : Visited step P s as ↔ AllSteps step guard s as := by
  refine ⟨fun hv => ?_, visited_of_invariant hstep hP hs⟩
  induction as generalizing s with
  | nil => trivial
  | cons a as ih =>
    intro s' hs'
    have hv' := hv.2 s' hs'
    have hP' : P s' := by
      cases as with
      | nil => exact hv'
      | cons b bs => exact hv'.1
    have hguard := hbreaks s a s' hs hs' hP'
    exact ⟨hguard, ih (hstep s a s' hs hguard hs') hv'⟩

/-- The rule for all runs. -/
theorem visited_iff_allSteps_of_invariant {guard : σ → α → Prop} {P J : σ → Prop}
    (hJ : ∀ s a s', J s → step s a = some s' → J s')
    (hstep : ∀ s a s', J s → P s → step s a = some s' → (P s' ↔ guard s a)) {s : σ} (hj : J s)
    (hs : P s) (as : List α) : Visited step P s as ↔ AllSteps step guard s as :=
  have hall : AllSteps step (fun _ _ => True) s as := allSteps_of_forall (fun _ _ => trivial) s as
  visited_iff_allSteps_of_guarded hJ (fun s a s' hj hs _ => hstep s a s' hj hs) hj hs hall

/-- The rule without an invariant beside `P`. -/
theorem visited_iff_allSteps {guard : σ → α → Prop} {P : σ → Prop}
    (hstep : ∀ s a s', P s → step s a = some s' → (P s' ↔ guard s a)) {s : σ} (hs : P s)
    (as : List α) : Visited step P s as ↔ AllSteps step guard s as :=
  visited_iff_allSteps_of_invariant (fun _ _ _ _ _ => trivial) (fun s a s' _ => hstep s a s')
    trivial hs as

end MMRelay
