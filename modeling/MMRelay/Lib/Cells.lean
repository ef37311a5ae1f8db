import Mathlib.Data.Prod.Basic
import MMRelay.Lib.Toggle

/-!
# Two cells side by side

A row brings a value to the left cell, to the right one or to both. A list of rows lives as long as
one of the two cells keeps a value after every row, and its outcome is what the cells hold then.

* `Row`, `meet`, `meets`, `Lives`, `outcome`;
* `left`, `right`, `pairs`, `onlyLeft`, `onlyRight`: the values that the rows bring;
* `Settled`: the lists of rows whose order does not matter;
* **`outcome_perm`**: they have the same outcome in every order.
-/

namespace MMRelay.Cells

variable {α β : Type}

/-- What a row brings, or what the two cells hold. -/
abbrev Row (α β : Type) := Option α × Option β

/-- Nothing on either side. -/
abbrev blank : Row α β := (none, none)

/-- The values for the left cell. -/
def left (ps : List (Row α β)) : List α := ps.filterMap Prod.fst

/-- The values for the right cell. -/
def right (ps : List (Row α β)) : List β := ps.filterMap Prod.snd

/-- The rows that bring both. -/
def pairs (ps : List (Row α β)) : List (α × β) :=
  ps.filterMap fun p => p.1.bind fun a => p.2.map fun b => (a, b)

def onlyLeft (ps : List (Row α β)) : List α :=
  ps.filterMap fun p => if p.2.isNone then p.1 else none

def onlyRight (ps : List (Row α β)) : List β :=
  ps.filterMap fun p => if p.1.isNone then p.2 else none

/-- The same rows with the sides exchanged. -/
def flip (ps : List (Row α β)) : List (Row β α) := ps.map Prod.swap

@[simp] theorem flip_flip (ps : List (Row α β)) : flip (flip ps) = ps := by
  simp [flip, Function.comp_def]

/-! ## What the rows bring -/

@[simp] theorem left_append (ps qs : List (Row α β)) : left (ps ++ qs) = left ps ++ left qs :=
  List.filterMap_append

@[simp] theorem right_append (ps qs : List (Row α β)) : right (ps ++ qs) = right ps ++ right qs :=
  List.filterMap_append

theorem left_flip (ps : List (Row α β)) : left (flip ps) = right ps := by
  simp only [left, flip, right, List.filterMap_map]
  rfl

theorem right_flip (ps : List (Row α β)) : right (flip ps) = left ps := by
  simp only [left, flip, right, List.filterMap_map]
  rfl

theorem onlyLeft_flip (ps : List (Row α β)) : onlyLeft (flip ps) = onlyRight ps := by
  simp only [onlyLeft, flip, onlyRight, List.filterMap_map]
  rfl

theorem onlyRight_flip (ps : List (Row α β)) : onlyRight (flip ps) = onlyLeft ps := by
  simp only [onlyLeft, flip, onlyRight, List.filterMap_map]
  rfl

theorem pairs_flip (ps : List (Row α β)) : pairs (flip ps) = (pairs ps).map Prod.swap := by
  simp only [pairs, flip, List.filterMap_map, List.map_filterMap]
  congr 1
  funext ⟨a, b⟩
  cases a <;> cases b <;> rfl

theorem mem_left {ps : List (Row α β)} {a : α} : a ∈ left ps ↔ ∃ b, (some a, b) ∈ ps := by
  simp only [left, List.mem_filterMap, Prod.exists]
  exact ⟨fun ⟨_, b, h, ha⟩ => ⟨b, ha ▸ h⟩, fun ⟨b, h⟩ => ⟨_, b, h, rfl⟩⟩

theorem mem_right {ps : List (Row α β)} {b : β} : b ∈ right ps ↔ ∃ a, (a, some b) ∈ ps := by
  simp only [right, List.mem_filterMap, Prod.exists]
  exact ⟨fun ⟨a, _, h, hb⟩ => ⟨a, hb ▸ h⟩, fun ⟨a, h⟩ => ⟨a, _, h, rfl⟩⟩

theorem onlyLeft_append (ps qs : List (Row α β)) :
    onlyLeft (ps ++ qs) = onlyLeft ps ++ onlyLeft qs := List.filterMap_append

theorem pairs_append (ps qs : List (Row α β)) : pairs (ps ++ qs) = pairs ps ++ pairs qs :=
  List.filterMap_append

theorem mem_onlyLeft {ps : List (Row α β)} {a : α} : a ∈ onlyLeft ps ↔ (some a, none) ∈ ps := by
  simp only [onlyLeft, List.mem_filterMap, Prod.exists]
  constructor
  · rintro ⟨a', b, h, ha⟩
    cases b with
    | none => exact ha ▸ h
    | some b => cases ha
  · exact fun h => ⟨some a, none, h, rfl⟩

/-- Rows that bring nothing on the right bring something on the left. -/
theorem onlyLeft_of_right_nil {ps : List (Row α β)} (hr : right ps = []) :
    onlyLeft ps = left ps := by
  unfold onlyLeft left
  refine List.filterMap_congr fun ⟨a, b⟩ hp => ?_
  cases b with
  | none => rfl
  | some b =>
    have : b ∈ right ps := mem_right.mpr ⟨a, hp⟩
    rw [hr] at this
    cases this

theorem mem_pairs {ps : List (Row α β)} {f : α × β} :
    f ∈ pairs ps ↔ (some f.1, some f.2) ∈ ps := by
  obtain ⟨a, b⟩ := f
  simp only [pairs, List.mem_filterMap, Prod.exists]
  constructor
  · rintro ⟨a', b', h, hf⟩
    cases a' with
    | none => cases hf
    | some a' =>
      cases b' with
      | none => cases hf
      | some b' =>
        cases hf
        exact h
  · exact fun h => ⟨some a, some b, h, rfl⟩

theorem left_perm (ps : List (Row α β)) :
    (left ps).Perm ((pairs ps).map Prod.fst ++ onlyLeft ps) := by
  induction ps with
  | nil => exact .refl _
  | cons p ps ih =>
    obtain ⟨a, b⟩ := p
    cases a with
    | none => cases b <;> exact ih
    | some a =>
      cases b with
      | none =>
        show (a :: left ps).Perm ((pairs ps).map Prod.fst ++ a :: onlyLeft ps)
        exact (ih.cons a).trans List.perm_middle.symm
      | some b => exact ih.cons a

/-- When no row brings only a right value, the right values are those of the pairs. -/
theorem right_of_onlyRight_nil {ps : List (Row α β)} (h : onlyRight ps = []) :
    right ps = (pairs ps).map Prod.snd := by
  induction ps with
  | nil => rfl
  | cons p ps ih =>
    obtain ⟨a, b⟩ := p
    cases a with
    | none =>
      cases b with
      | none => exact ih h
      | some b => cases h
    | some a =>
      cases b with
      | none => exact ih h
      | some b => exact congrArg (b :: ·) (ih h)

/-- When no row brings only a left value, the left values are those of the pairs. -/
theorem left_of_onlyLeft_nil {ps : List (Row α β)} (h : onlyLeft ps = []) :
    left ps = (pairs ps).map Prod.fst := by
  rw [← onlyRight_flip] at h
  rw [← right_flip, right_of_onlyRight_nil h, pairs_flip, List.map_map]
  rfl

theorem exists_last_right {ps : List (Row α β)} (h : right ps ≠ []) :
    ∃ pre a b post, ps = pre ++ (a, some b) :: post ∧ right post = [] := by
  induction ps with
  | nil => exact absurd rfl h
  | cons p ps ih =>
    by_cases hps : right ps = []
    · obtain ⟨a, b⟩ := p
      cases b with
      | none => exact absurd hps h
      | some b => exact ⟨[], a, b, ps, rfl, hps⟩
    · obtain ⟨pre, a, b, post, rfl, hpost⟩ := ih hps
      exact ⟨p :: pre, a, b, post, rfl, hpost⟩

theorem blank_notMem_flip {ps : List (Row α β)} (hb : blank ∉ ps) : blank ∉ flip ps := by
  intro hmem
  obtain ⟨p, hp, heq⟩ := List.mem_map.mp hmem
  have : p = blank := Prod.swap_injective heq
  exact hb (this ▸ hp)

theorem brings {ps : List (Row α β)} (hb : blank ∉ ps) (hne : ps ≠ []) :
    left ps ≠ [] ∨ right ps ≠ [] := by
  obtain ⟨⟨a, b⟩, hp⟩ := List.exists_mem_of_ne_nil ps hne
  cases a with
  | some a => exact .inl (List.ne_nil_of_mem (mem_left.mpr ⟨b, hp⟩))
  | none =>
    cases b with
    | some b => exact .inr (List.ne_nil_of_mem (mem_right.mpr ⟨none, hp⟩))
    | none => exact absurd hp hb

/-! ## Rows whose order does not matter -/

/-- Equal values on one side come with equal values on the other. -/
def Diagonal (fs : List (α × β)) : Prop :=
  ∀ f ∈ fs, ∀ g ∈ fs, f = g ∨ f.1 ≠ g.1 ∧ f.2 ≠ g.2

/-- Two pairs share their left value only; the other rows bring further left values, all different
and even in number. -/
structure Fork (fs : List (α × β)) (as : List α) (bs : List β) : Prop where
  no_right : bs = []
  some_left : as ≠ []
  paired : Paired as
  two : fs.length = 2
  shared : Uniform (fs.map Prod.fst)
  apart : (fs.map Prod.snd).Nodup
  fresh : ∀ f ∈ fs, f.1 ∉ as

/-- The right cell gets one value and the left one none in the end; at most one row cannot have the
right cell keep its value. -/
structure Pinned (ps : List (Row α β)) : Prop where
  uniform : Uniform (right ps)
  paired : Paired (left ps)
  free : (onlyLeft ps).length ≤ 1

/-- Both sides get their values in pairs, every row brings both and equal ones together, or the
rows are a fork. -/
def Trapped (ps : List (Row α β)) : Prop :=
  (Paired (left ps) ∧ Paired (right ps)) ∨
  (onlyLeft ps = [] ∧ onlyRight ps = [] ∧ Diagonal (pairs ps)) ∨
  Fork (pairs ps) (onlyLeft ps) (onlyRight ps) ∨
  Fork (pairs (flip ps)) (onlyLeft (flip ps)) (onlyRight (flip ps))

theorem Diagonal.swap {fs : List (α × β)} (h : Diagonal fs) : Diagonal (fs.map Prod.swap) := by
  intro f' hf' g' hg'
  obtain ⟨f, hf, rfl⟩ := List.mem_map.mp hf'
  obtain ⟨g, hg, rfl⟩ := List.mem_map.mp hg'
  rcases h f hf g hg with heq | ⟨h1, h2⟩
  · exact .inl (by rw [heq])
  · exact .inr ⟨h2, h1⟩

theorem Trapped.flip {ps : List (Row α β)} (h : Trapped ps) : Trapped (flip ps) := by
  rcases h with ⟨h1, h2⟩ | ⟨h1, h2, h3⟩ | h | h
  · refine .inl ⟨?_, ?_⟩
    · rw [left_flip]
      exact h2
    · rw [right_flip]
      exact h1
  · refine .inr (.inl ⟨?_, ?_, ?_⟩)
    · rw [onlyLeft_flip]
      exact h2
    · rw [onlyRight_flip]
      exact h1
    · rw [pairs_flip]
      exact h3.swap
  · refine .inr (.inr (.inr ?_))
    rw [flip_flip]
    exact h
  · exact .inr (.inr (.inl h))

/-- Different values on the left, and in every order some row empties both cells. -/
def Doomed (ps : List (Row α β)) : Prop := ¬ Uniform (left ps) ∧ Trapped ps

/-- The order of the rows does not matter. -/
def Settled (ps : List (Row α β)) : Prop :=
  (Uniform (left ps) ∧ Uniform (right ps)) ∨ left ps = [] ∨ right ps = [] ∨
  Pinned ps ∨ Pinned (flip ps) ∨ Doomed ps

/-! ## The cells -/

variable [DecidableEq α] [DecidableEq β]

/-- A row meets the cells. -/
def meet (c p : Row α β) : Row α β := (p.1.elim c.1 (toggle c.1), p.2.elim c.2 (toggle c.2))

/-- The rows meet the cells one after the other. -/
def meets (c : Row α β) (ps : List (Row α β)) : Row α β := ps.foldl meet c

/-- One of the cells keeps a value after every row. -/
def Lives : Row α β → List (Row α β) → Prop
  | _, [] => True
  | c, p :: ps => meet c p ≠ blank ∧ Lives (meet c p) ps

instance decidableLives : ∀ (c : Row α β) (ps : List (Row α β)), Decidable (Lives c ps)
  | _, [] => isTrue trivial
  | c, p :: ps =>
    have := decidableLives (meet c p) ps
    inferInstanceAs (Decidable (meet c p ≠ blank ∧ Lives (meet c p) ps))

/-- What the cells hold in the end, if the rows live. -/
def outcome (ps : List (Row α β)) : Option (Row α β) :=
  if Lives blank ps then some (meets blank ps) else none

/-! ## Living -/

section Living

variable (c : Row α β)

@[simp] theorem meets_nil : meets c [] = c := rfl

@[simp] theorem meets_cons (p : Row α β) (ps : List (Row α β)) :
    meets c (p :: ps) = meets (meet c p) ps := rfl

theorem meets_append (ps qs : List (Row α β)) : meets c (ps ++ qs) = meets (meets c ps) qs :=
  List.foldl_append

theorem meets_eq (ps : List (Row α β)) :
    meets c ps = (toggles c.1 (left ps), toggles c.2 (right ps)) := by
  induction ps generalizing c with
  | nil => rfl
  | cons p ps ih =>
    obtain ⟨a, b⟩ := p
    rw [meets_cons, ih]
    cases a <;> cases b <;> rfl

@[simp] theorem lives_nil : Lives c [] := trivial

theorem lives_cons (p : Row α β) (ps : List (Row α β)) :
    Lives c (p :: ps) ↔ meet c p ≠ blank ∧ Lives (meet c p) ps := Iff.rfl

theorem lives_append (ps qs : List (Row α β)) :
    Lives c (ps ++ qs) ↔ Lives c ps ∧ Lives (meets c ps) qs := by
  induction ps generalizing c with
  | nil => exact ⟨fun h => ⟨trivial, h⟩, fun h => h.2⟩
  | cons p ps ih =>
    rw [List.cons_append, lives_cons, lives_cons, ih, and_assoc]
    rfl

/-- A beginning that empties both cells is the end. -/
theorem not_lives_of_beginning {pre post : List (Row α β)} (hne : pre ≠ [])
    (h : meets c pre = blank) : ¬ Lives c (pre ++ post) := by
  rw [lives_append]
  rintro ⟨hl, -⟩
  obtain ⟨qs, p, rfl⟩ := (List.eq_nil_or_concat' pre).resolve_left hne
  rw [lives_append] at hl
  rw [meets_append] at h
  exact hl.2.1 h

/-- Rows live if no beginning empties both cells. -/
theorem lives_of_beginnings (ps : List (Row α β))
    (h : ∀ pre post, ps = pre ++ post → pre ≠ [] → meets c pre ≠ blank) : Lives c ps := by
  induction ps generalizing c with
  | nil => trivial
  | cons p ps ih =>
    refine ⟨h [p] ps rfl (List.cons_ne_nil p []), ih _ ?_⟩
    rintro pre post rfl -
    exact h (p :: pre) post rfl (List.cons_ne_nil p pre)

theorem meets_flip (ps : List (Row α β)) : meets c.swap (flip ps) = (meets c ps).swap := by
  induction ps generalizing c with
  | nil => rfl
  | cons p ps ih => exact ih (meet c p)

theorem lives_flip (ps : List (Row α β)) : Lives c.swap (flip ps) ↔ Lives c ps := by
  induction ps generalizing c with
  | nil => exact Iff.rfl
  | cons p ps ih =>
    refine and_congr (not_congr ?_) (ih (meet c p))
    exact ⟨fun h => Prod.swap_injective h, fun h => congrArg Prod.swap h⟩

end Living


/-! ## The outcome -/

theorem outcome_eq_some {ps : List (Row α β)} (h : Lives blank ps) :
    outcome ps = some (meets blank ps) := if_pos h

theorem outcome_eq_none {ps : List (Row α β)} (h : ¬ Lives blank ps) : outcome ps = none := if_neg h

theorem outcome_flip (ps : List (Row α β)) : outcome (flip ps) = (outcome ps).map Prod.swap := by
  by_cases h : Lives blank ps
  · rw [outcome_eq_some h, outcome_eq_some ((lives_flip blank ps).mpr h), Option.map_some]
    exact congrArg some (meets_flip blank ps)
  · rw [outcome_eq_none h, outcome_eq_none fun hf => h ((lives_flip blank ps).mp hf)]
    rfl

/-- The rows lead to their end if some beginning empties both cells. -/
theorem outcome_of_beginning {ps post : List (Row α β)} (pre : List (Row α β))
    (hps : ps = pre ++ post) (hne : left pre ≠ [] ∨ right pre ≠ [])
    (hl : toggles none (left pre) = none) (hr : toggles none (right pre) = none) : outcome ps = none := by
  subst hps
  refine outcome_eq_none (not_lives_of_beginning blank ?_ ?_)
  · rintro rfl
    exact hne.elim (fun h => h rfl) fun h => h rfl
  · rw [meets_eq, hl, hr]

/-- The same values on both sides: they stay. -/
theorem outcome_of_uniform {ps : List (Row α β)} (hb : blank ∉ ps) (hl : Uniform (left ps))
    (hr : Uniform (right ps)) : outcome ps = some ((left ps).head?, (right ps).head?) := by
  have hlive : Lives blank ps := by
    refine lives_of_beginnings blank ps fun pre post hps hne hblank => ?_
    subst hps
    have hpre : blank ∉ pre := fun h => hb (List.mem_append_left post h)
    rw [left_append] at hl
    rw [right_append] at hr
    have hl' : Uniform (left pre) := fun a ha b hb' =>
      hl a (List.mem_append_left _ ha) b (List.mem_append_left _ hb')
    have hr' : Uniform (right pre) := fun a ha b hb' =>
      hr a (List.mem_append_left _ ha) b (List.mem_append_left _ hb')
    rw [meets_eq, toggles_of_uniform hl', toggles_of_uniform hr', Prod.mk.injEq,
      List.head?_eq_none_iff, List.head?_eq_none_iff] at hblank
    exact (brings hpre hne).elim (fun h => h hblank.1) fun h => h hblank.2
  rw [outcome_eq_some hlive, meets_eq, toggles_of_uniform hl, toggles_of_uniform hr]

/-- One side alone has different values. -/
theorem outcome_of_left_nil {ps : List (Row α β)} (hl : left ps = []) (hr : ¬ Uniform (right ps)) :
    outcome ps = none := by
  obtain ⟨r, r', hr', htog, hne⟩ := exists_prefix_none hr
  obtain ⟨pre, post, rfl, rfl, -⟩ := List.filterMap_eq_append_iff.mp hr'
  rw [left_append, List.append_eq_nil_iff] at hl
  exact outcome_of_beginning _ rfl (.inr hne) (by rw [hl.1]; rfl) htog

theorem outcome_of_pinned {ps : List (Row α β)} (hb : blank ∉ ps) (h : Pinned ps)
    (hne : right ps ≠ []) : outcome ps = some (none, (right ps).head?) := by
  have hlive : Lives blank ps := by
    refine lives_of_beginnings blank ps fun pre post hps hpre hblank => ?_
    obtain ⟨hu, -, hfree⟩ := h
    subst hps
    have hb' : blank ∉ pre := fun h => hb (List.mem_append_left post h)
    rw [right_append] at hu
    have hu' : Uniform (right pre) := fun a ha b hb' =>
      hu a (List.mem_append_left _ ha) b (List.mem_append_left _ hb')
    rw [meets_eq, toggles_of_uniform hu', Prod.mk.injEq, List.head?_eq_none_iff] at hblank
    -- without a value on the right there is one row, which has the left one
    rw [onlyLeft_append, List.length_append, onlyLeft_of_right_nil hblank.2] at hfree
    have hlen : (left pre).length = 1 := by
      have hl := (brings hb' hpre).resolve_right fun h => h hblank.2
      have := List.length_pos_of_ne_nil hl
      omega
    obtain ⟨a, ha⟩ := List.length_eq_one_iff.mp hlen
    rw [ha] at hblank
    cases hblank.1
  rw [outcome_eq_some hlive, meets_eq, toggles_of_paired h.paired, toggles_of_uniform h.uniform]

/-- Both sides in pairs: the whole list empties both cells. -/
theorem outcome_of_paired {ps : List (Row α β)} (hl : Paired (left ps)) (hr : Paired (right ps))
    (hne : left ps ≠ []) : outcome ps = none :=
  outcome_of_beginning _ (List.append_nil ps).symm (.inl hne) (toggles_of_paired hl)
    (toggles_of_paired hr)

/-- Equal on both sides or on none: the first other row empties both cells. -/
theorem outcome_of_diagonal {ps : List (Row α β)} (hl : onlyLeft ps = []) (hr : onlyRight ps = [])
    (hd : Diagonal (pairs ps)) (hu : ¬ Uniform (left ps)) : outcome ps = none := by
  have hu' : ¬ Uniform (pairs ps) := by
    intro h
    rw [left_of_onlyLeft_nil hl] at hu
    refine hu fun a ha b hb => ?_
    obtain ⟨f, hf, rfl⟩ := List.mem_map.mp ha
    obtain ⟨g, hg, rfl⟩ := List.mem_map.mp hb
    rw [h f hf g hg]
  obtain ⟨f, u, g, v, hps, hsame, hne⟩ := exists_first_other hu'
  have hsplit : pairs ps = (f :: u ++ [g]) ++ v := by rw [hps]; simp
  obtain ⟨pre, post, rfl, hpre, -⟩ := List.filterMap_eq_append_iff.mp hsplit
  change pairs pre = _ at hpre
  rw [onlyLeft_append, List.append_eq_nil_iff] at hl
  have hr' : onlyRight pre = [] := by
    rw [onlyRight, List.filterMap_append, List.append_eq_nil_iff] at hr
    exact hr.1
  have hapart : g.1 ≠ f.1 ∧ g.2 ≠ f.2 := by
    refine (hd g ?_ f ?_).resolve_left hne
    · rw [hps]; simp
    · rw [hps]; simp
  have hlp : left pre = f.1 :: u.map Prod.fst ++ [g.1] := by
    rw [left_of_onlyLeft_nil hl.1, hpre]; simp
  have hrp : right pre = f.2 :: u.map Prod.snd ++ [g.2] := by
    rw [right_of_onlyRight_nil hr', hpre]; simp
  refine outcome_of_beginning _ rfl (.inl (by rw [hlp]; simp)) ?_ ?_
  · have hall : ∀ b ∈ u.map Prod.fst, b = f.1 := by
      rintro b hb
      obtain ⟨k, hk, rfl⟩ := List.mem_map.mp hb
      rw [hsame k hk]
    rw [hlp, List.cons_append, toggles_cons, toggle_none, toggles_concat,
      toggles_some_of_forall hall, toggle_of_ne hapart.1.symm]
  · have hall : ∀ b ∈ u.map Prod.snd, b = f.2 := by
      rintro b hb
      obtain ⟨k, hk, rfl⟩ := List.mem_map.mp hb
      rw [hsame k hk]
    rw [hrp, List.cons_append, toggles_cons, toggle_none, toggles_concat,
      toggles_some_of_forall hall, toggle_of_ne hapart.2.symm]

/-- The second pair comes last and leaves its left value: then the first pair came just before it,
and all the other rows before that. -/
theorem outcome_of_fork_last {pre : List (Row α β)} {c : α} {y : β}
    (h : Fork (pairs (pre ++ [(some c, some y)])) (onlyLeft (pre ++ [(some c, some y)]))
      (onlyRight (pre ++ [(some c, some y)])))
    (hlen : (right (pre ++ [(some c, some y)])).length = 2)
    (hc : toggle (toggles none (left pre)) c = some c) :
    outcome (pre ++ [(some c, some y)]) = none := by
  have hpairs : pairs (pre ++ [(some c, some y)]) = pairs pre ++ [(c, y)] := pairs_append _ _
  have honly : onlyLeft (pre ++ [(some c, some y)]) = onlyLeft pre := by
    rw [onlyLeft_append]; exact List.append_nil _
  obtain ⟨-, hsome, hpaired, htwo, hshared, -, hfresh⟩ := h
  rw [honly] at hsome hpaired hfresh
  rw [hpairs] at htwo hshared hfresh
  -- one pair has come before, with the same left value
  obtain ⟨⟨c', x⟩, hx⟩ : ∃ f, pairs pre = [f] := List.length_eq_one_iff.mp (by simpa using htwo)
  obtain rfl : c' = c := hshared c' (by rw [hx]; simp) c (by simp)
  have hcfresh : c' ∉ onlyLeft pre := hfresh (c', y) (by simp)
  have hperm : (left pre).Perm (c' :: onlyLeft pre) := by
    have := left_perm pre
    rwa [hx] at this
  have hnodup : (left pre).Nodup :=
    hperm.nodup_iff.mpr (List.nodup_cons.mpr ⟨hcfresh, hpaired.1⟩)
  have hodd : ¬ Even (left pre).length := by
    rw [hperm.length_eq, List.length_cons, Nat.even_add_one, not_not]
    exact hpaired.2
  obtain ⟨w, b, hw, hb⟩ := (toggles_of_nodup _ hnodup).2 hodd
  rw [hb] at hc
  obtain rfl : b = c' := by
    by_contra hne
    rw [toggle_of_ne hne] at hc
    cases hc
  obtain ⟨u, v, rfl, rfl, hv⟩ := List.filterMap_eq_append_iff.mp hw
  change left v = [b] at hv
  have hwperm : (left u).Perm (onlyLeft (u ++ v)) := by
    rw [left_append, hv] at hperm
    exact (List.perm_cons b).mp ((List.perm_append_singleton b _).symm.trans hperm)
  -- the first pair is not among the rows before the last left value
  have hright : right u = [] := by
    have hmem : (some b, some x) ∈ u ++ v :=
      mem_pairs (f := (b, x)) |>.mp (by rw [hx]; exact List.mem_singleton_self _)
    have hv' : x ∈ right v := by
      rcases List.mem_append.mp hmem with hu | hv
      · have hbu : b ∈ left u := mem_left.mpr ⟨some x, hu⟩
        exact absurd (hwperm.mem_iff.mp hbu) hcfresh
      · exact mem_right.mpr ⟨some b, hv⟩
    have hpos := List.length_pos_of_mem hv'
    rw [right_append, right_append, List.length_append, List.length_append] at hlen
    have h1 : (right [(some b, some y)] : List β).length = 1 := rfl
    exact List.length_eq_zero_iff.mp (by omega)
  have hne : left u ≠ [] := fun hnil => hsome (List.nil_perm.mp (hnil ▸ hwperm))
  exact outcome_of_beginning _ (List.append_assoc u v _) (.inl hne)
    (toggles_of_paired (hpaired.perm hwperm.symm)) (by rw [hright]; rfl)

/-- Two right values: after the second pair, or just before the first one, both cells are empty. -/
theorem outcome_of_fork {ps : List (Row α β)} (hb : blank ∉ ps)
    (h : Fork (pairs ps) (onlyLeft ps) (onlyRight ps)) : outcome ps = none := by
  have hr : right ps = (pairs ps).map Prod.snd := right_of_onlyRight_nil h.no_right
  have hlen : (right ps).length = 2 := by rw [hr, List.length_map]; exact h.two
  have hpair : Paired (right ps) := ⟨hr ▸ h.apart, by rw [hlen]; decide⟩
  obtain ⟨pre, a, y, post, rfl, hpost⟩ := exists_last_right (List.ne_nil_of_length_pos (hlen ▸ Nat.two_pos))
  cases a with
  | none =>
    have : y ∈ onlyRight (pre ++ (none, some y) :: post) := by
      rw [onlyRight, List.filterMap_append]
      exact List.mem_append_right _ List.mem_cons_self
    rw [h.no_right] at this
    cases this
  | some c =>
    have hmem : (c, y) ∈ pairs (pre ++ (some c, some y) :: post) := mem_pairs.mpr (by simp)
    have hrp : right (pre ++ [(some c, some y)]) = right (pre ++ (some c, some y) :: post) := by
      rw [right_append, right_append, List.append_cancel_left_eq]
      show [y] = y :: right post
      rw [hpost]
    have hlp : left (pre ++ [(some c, some y)]) = left pre ++ [c] := left_append _ _
    have hsplit : pre ++ (some c, some y) :: post = (pre ++ [(some c, some y)]) ++ post := by simp
    have hne : left (pre ++ [(some c, some y)]) ≠ [] := by rw [hlp]; simp
    rcases toggle_eq_or (toggles none (left pre)) c with hc | hc
    · cases post with
      | cons q post =>
        -- a row that brings only another left value
        obtain ⟨a, b⟩ := q
        cases b with
        | some b => cases hpost
        | none =>
          cases a with
          | none => exact absurd (List.mem_append_right pre (by simp)) hb
          | some a =>
            have hne' : c ≠ a := fun heq =>
              h.fresh _ hmem (heq ▸ mem_onlyLeft.mpr (by simp))
            have hsplit' : pre ++ (some c, some y) :: (some a, none) :: post =
                pre ++ [(some c, some y), (some a, none)] ++ post := by simp
            refine outcome_of_beginning _ hsplit' (.inr ?_) ?_ ?_
            · rw [right_append]; simp [right]
            · have : left (pre ++ [(some c, some y), (some a, none)]) = left pre ++ [c] ++ [a] := by
                rw [left_append, List.append_assoc]; rfl
              rw [this, toggles_concat, toggles_concat, hc, toggle_of_ne hne']
            · have : right (pre ++ [(some c, some y), (some a, none)]) =
                  right (pre ++ [(some c, some y)]) := by
                rw [right_append, right_append]; rfl
              rw [this, hrp]
              exact toggles_of_paired hpair
      | nil => exact outcome_of_fork_last h hlen hc
    · exact outcome_of_beginning _ hsplit (.inl hne) (by rw [hlp, toggles_concat, hc])
        (by rw [hrp]; exact toggles_of_paired hpair)

/-! ## Settled lists -/

theorem outcome_of_doomed {ps : List (Row α β)} (hb : blank ∉ ps) (h : Doomed ps) :
    outcome ps = none := by
  obtain ⟨hl, h⟩ := h
  have hne : left ps ≠ [] := by
    intro hnil
    exact hl fun a ha => by rw [hnil] at ha; cases ha
  rcases h with ⟨h1, h2⟩ | ⟨h1, h2, h3⟩ | h | h
  · exact outcome_of_paired h1 h2 hne
  · exact outcome_of_diagonal h1 h2 h3 hl
  · exact outcome_of_fork hb h
  · have := outcome_of_fork (blank_notMem_flip hb) h
    rw [outcome_flip, Option.map_eq_none_iff] at this
    exact this

section Perm

variable {ps qs : List (Row α β)} (h : ps.Perm qs)
include h

omit [DecidableEq α] [DecidableEq β] in
theorem Fork.perm (hf : Fork (pairs ps) (onlyLeft ps) (onlyRight ps)) :
    Fork (pairs qs) (onlyLeft qs) (onlyRight qs) := by
  have hp : (pairs ps).Perm (pairs qs) := h.filterMap _
  have ha : (onlyLeft ps).Perm (onlyLeft qs) := h.filterMap _
  have hb : (onlyRight ps).Perm (onlyRight qs) := h.filterMap _
  exact {
    no_right := List.nil_perm.mp (hf.no_right ▸ hb)
    some_left := fun hnil => hf.some_left (List.perm_nil.mp (hnil ▸ ha))
    paired := hf.paired.perm ha
    two := hp.length_eq ▸ hf.two
    shared := hf.shared.perm (hp.map _)
    apart := (hp.map _).nodup_iff.mp hf.apart
    fresh := fun f hmem hin => hf.fresh f (hp.mem_iff.mpr hmem) (ha.mem_iff.mpr hin) }

omit [DecidableEq α] [DecidableEq β] in
theorem Pinned.perm (hp : Pinned ps) : Pinned qs where
  uniform := hp.uniform.perm (h.filterMap _)
  paired := hp.paired.perm (h.filterMap _)
  free := (h.filterMap fun p : Row α β => if p.2.isNone then p.1 else none).length_eq ▸ hp.free

omit [DecidableEq α] [DecidableEq β] in
theorem Trapped.perm (hd : Trapped ps) : Trapped qs := by
  rcases hd with ⟨h1, h2⟩ | ⟨h1, h2, h3⟩ | hf | hf
  · exact .inl ⟨h1.perm (h.filterMap _), h2.perm (h.filterMap _)⟩
  · refine .inr (.inl ⟨?_, ?_, fun f hf g hg => ?_⟩)
    · exact List.nil_perm.mp (h1 ▸ h.filterMap _)
    · exact List.nil_perm.mp (h2 ▸ h.filterMap _)
    · have hp : (pairs ps).Perm (pairs qs) := h.filterMap _
      exact h3 f (hp.mem_iff.mpr hf) g (hp.mem_iff.mpr hg)
  · exact .inr (.inr (.inl (hf.perm h)))
  · exact .inr (.inr (.inr (hf.perm (h.map _))))

omit [DecidableEq α] [DecidableEq β] in
theorem Doomed.perm (hd : Doomed ps) : Doomed qs :=
  ⟨fun hu => hd.1 (hu.perm (h.symm.filterMap _)), hd.2.perm h⟩

end Perm

/-- The values on the right differ and there is none on the left. -/
theorem outcome_perm_of_left_nil {ps qs : List (Row α β)} (h : left ps = [])
    (hr : ¬ Uniform (right ps)) (hp : ps.Perm qs) : outcome qs = outcome ps := by
  have hl : (left ps).Perm (left qs) := hp.filterMap _
  have hr' : ¬ Uniform (right qs) := fun hu => hr (hu.perm (hp.symm.filterMap _))
  rw [outcome_of_left_nil h hr, outcome_of_left_nil (List.nil_perm.mp (h ▸ hl)) hr']

theorem outcome_perm_of_pinned {ps qs : List (Row α β)} (hb : blank ∉ ps) (h : Pinned ps)
    (hp : ps.Perm qs) (hne : right ps ≠ []) : outcome qs = outcome ps := by
  have hr : (right ps).Perm (right qs) := hp.filterMap _
  have hb' : blank ∉ qs := fun hmem => hb (hp.mem_iff.mpr hmem)
  have hne' : right qs ≠ [] := fun hnil => hne (List.perm_nil.mp (hnil ▸ hr))
  rw [outcome_of_pinned hb h hne, outcome_of_pinned hb' (h.perm hp) hne', h.uniform.head?_perm hr]

theorem outcome_eq_of_flip {ps qs : List (Row α β)} (h : outcome (flip qs) = outcome (flip ps)) :
    outcome qs = outcome ps := by
  rw [outcome_flip, outcome_flip] at h
  exact Option.map_injective Prod.swap_injective h

/-- **Settled rows** have the same outcome in every order. -/
theorem outcome_perm {ps qs : List (Row α β)} (hb : blank ∉ ps) (h : Settled ps)
    (hp : ps.Perm qs) : outcome qs = outcome ps := by
  have hl : (left ps).Perm (left qs) := hp.filterMap _
  have hr : (right ps).Perm (right qs) := hp.filterMap _
  have hb' : blank ∉ qs := fun hmem => hb (hp.mem_iff.mpr hmem)
  by_cases huni : Uniform (left ps) ∧ Uniform (right ps)
  · rw [outcome_of_uniform hb huni.1 huni.2,
      outcome_of_uniform hb' (huni.1.perm hl) (huni.2.perm hr), huni.1.head?_perm hl,
      huni.2.head?_perm hr]
  have uniform_nil : ∀ {γ : Type}, Uniform ([] : List γ) := fun a ha => by cases ha
  by_cases hlnil : left ps = []
  · refine outcome_perm_of_left_nil hlnil (fun hu => huni ⟨?_, hu⟩) hp
    rw [hlnil]
    exact uniform_nil
  by_cases hrnil : right ps = []
  · refine outcome_eq_of_flip (outcome_perm_of_left_nil ?_ (fun hu => huni ⟨?_, ?_⟩) (hp.map _))
    · rw [left_flip]
      exact hrnil
    · rw [right_flip] at hu
      exact hu
    · rw [hrnil]
      exact uniform_nil
  rcases h with hu | hnil | hnil | hpin | hpin | hd
  · exact absurd hu huni
  · exact absurd hnil hlnil
  · exact absurd hnil hrnil
  · exact outcome_perm_of_pinned hb hpin hp hrnil
  · refine outcome_eq_of_flip
      (outcome_perm_of_pinned (blank_notMem_flip hb) hpin (hp.map _) ?_)
    rw [right_flip]
    exact hlnil
  · rw [outcome_of_doomed hb hd, outcome_of_doomed hb' (hd.perm hp)]

end MMRelay.Cells
