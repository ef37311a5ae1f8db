import MMRelay.Lib.Cells

/-!
# Rows that live in some order

When both cells get different values and the rows are not trapped, some order of the rows keeps one
of the cells filled throughout. With it the settled lists are the only ones whose order does not
matter.

* `Escapes`: the rows live in some order;
* `exists_lives_of_half`: rows that bring both values live after any row that leaves one cell filled;
* `Escapes.split`: a row may be split into its two sides;
* **`escapes`**: rows with different values on both sides escape unless they are trapped;
* **`outcome_perm_iff`**: the order of the rows does not matter exactly when they are settled.
-/

namespace MMRelay.Cells

variable {α β : Type}

/-- Rows with a value on both sides. -/
def both (fs : List (α × β)) : List (Row α β) := fs.map fun f => (some f.1, some f.2)

/-- Rows with a value on the left. -/
def lefts (as : List α) : List (Row α β) := as.map fun a => (some a, none)

/-- Rows with a value on the right. -/
def rights (bs : List β) : List (Row α β) := bs.map fun b => (none, some b)

@[simp] theorem left_both (fs : List (α × β)) : left (both fs) = fs.map Prod.fst := by
  induction fs with
  | nil => rfl
  | cons f fs ih => exact congrArg (f.1 :: ·) ih

@[simp] theorem right_both (fs : List (α × β)) : right (both fs) = fs.map Prod.snd := by
  induction fs with
  | nil => rfl
  | cons f fs ih => exact congrArg (f.2 :: ·) ih

@[simp] theorem left_lefts (as : List α) : left (lefts as : List (Row α β)) = as := by
  induction as with
  | nil => rfl
  | cons a as ih => exact congrArg (a :: ·) ih

@[simp] theorem right_lefts (as : List α) : right (lefts as : List (Row α β)) = [] := by
  induction as with
  | nil => rfl
  | cons a as ih => exact ih

theorem perm_kinds {ps : List (Row α β)} (hb : blank ∉ ps) :
    ps.Perm (both (pairs ps) ++ lefts (onlyLeft ps) ++ rights (onlyRight ps)) := by
  induction ps with
  | nil => exact .refl _
  | cons p ps ih =>
    have ih := ih fun h => hb (List.mem_cons_of_mem p h)
    obtain ⟨a, b⟩ := p
    cases a with
    | none =>
      cases b with
      | none => exact absurd List.mem_cons_self hb
      | some b => exact (ih.cons _).trans List.perm_middle.symm
    | some a =>
      cases b with
      | none =>
        exact (ih.cons _).trans (List.perm_middle.symm.append_right (rights (onlyRight ps)))
      | some b => exact ih.cons _

/-- A repeated image: two members with it come first in some order. -/
theorem exists_perm_of_not_nodup_map {γ δ : Type} (h : γ → δ) {l : List γ}
    (hn : ¬ (l.map h).Nodup) : ∃ a b l', l.Perm (a :: b :: l') ∧ h a = h b := by
  induction l with
  | nil => exact absurd List.nodup_nil hn
  | cons a l ih =>
    by_cases hmem : h a ∈ l.map h
    · obtain ⟨b, hb, heq⟩ := List.mem_map.mp hmem
      obtain ⟨l', hp⟩ := exists_cons_perm hb
      exact ⟨a, b, l', hp.cons a, heq.symm⟩
    · have hn' : ¬ (l.map h).Nodup := fun hnd => hn (List.nodup_cons.mpr ⟨hmem, hnd⟩)
      obtain ⟨b, c, l', hp, heq⟩ := ih hn'
      refine ⟨b, c, a :: l', ?_, heq⟩
      exact (hp.cons a).trans ((List.Perm.swap b a _).trans ((List.Perm.swap c a _).cons b))

theorem both_perm {fs gs : List (α × β)} (h : fs.Perm gs) : (both fs).Perm (both gs) := h.map _

theorem lefts_perm {as as' : List α} (h : as.Perm as') :
    (lefts as : List (Row α β)).Perm (lefts as') := h.map _

variable [DecidableEq α] [DecidableEq β]

/-- The rows live in some order. -/
def Escapes (ps : List (Row α β)) : Prop := ∃ qs, ps.Perm qs ∧ Lives blank qs

theorem Escapes.perm {ps qs : List (Row α β)} (h : Escapes ps) (hp : ps.Perm qs) : Escapes qs := by
  obtain ⟨rs, hr, hl⟩ := h
  exact ⟨rs, hp.symm.trans hr, hl⟩

theorem Escapes.of_flip {ps : List (Row α β)} (h : Escapes (flip ps)) : Escapes ps := by
  obtain ⟨qs, hq, hl⟩ := h
  refine ⟨flip qs, ?_, (lives_flip blank qs).mpr hl⟩
  rw [← flip_flip ps]
  exact hq.map _

/-! ## Keeping one cell filled -/

/-- The right cell keeps its value while no other comes. -/
theorem lives_of_right {ps : List (Row α β)} {b : β} (h : ∀ b' ∈ right ps, b' = b)
    (a : Option α) : Lives (a, some b) ps := by
  refine lives_of_beginnings _ ps fun pre post hps _ hblank => ?_
  rw [meets_eq] at hblank
  have hpre : ∀ b' ∈ right pre, b' = b := by
    intro b' hb'
    refine h b' ?_
    rw [hps, right_append]
    exact List.mem_append_left _ hb'
  rw [toggles_some_of_forall hpre] at hblank
  cases congrArg Prod.snd hblank

theorem lives_lefts (a : Option α) (b : β) (as : List α) : Lives (a, some b) (lefts as) :=
  lives_of_right (by simp) a

/-- Just one of the cells is filled. -/
def Half (c : Row α β) : Prop := (∃ b, c = (none, some b)) ∨ ∃ a, c = (some a, none)

/-- **Rows with both values** live in some order after just one cell is filled: a row with another
value on that side fills the other cell instead. -/
theorem exists_lives_of_half (fs : List (α × β)) {c : Row α β} (h : Half c) :
    ∃ gs, fs.Perm gs ∧ Lives c (both gs) := by
  obtain ⟨n, hn⟩ : ∃ n, fs.length = n := ⟨_, rfl⟩
  induction n generalizing fs c with
  | zero =>
    rw [List.length_eq_zero_iff] at hn
    exact ⟨[], by rw [hn], trivial⟩
  | succ n ih =>
    rcases h with ⟨b, rfl⟩ | ⟨a, rfl⟩
    · by_cases hex : ∃ f ∈ fs, b ≠ f.2
      · obtain ⟨f, hf, hne⟩ := hex
        obtain ⟨fs', hp⟩ := exists_cons_perm hf
        have hlen : fs'.length = n := by
          have := hp.length_eq
          rw [List.length_cons] at this
          omega
        obtain ⟨gs, hg, hl⟩ := ih fs' (.inr ⟨f.1, rfl⟩) hlen
        have hm : meet (none, some b) (some f.1, some f.2) = (some f.1, none) := by
          simp [meet, toggle_of_ne hne]
        exact ⟨f :: gs, hp.trans (hg.cons f), by rw [hm]; simp, by rw [hm]; exact hl⟩
      · push Not at hex
        refine ⟨fs, .refl _, lives_of_right ?_ none⟩
        intro b' hb'
        rw [right_both, List.mem_map] at hb'
        obtain ⟨f, hf, rfl⟩ := hb'
        exact (hex f hf).symm
    · by_cases hex : ∃ f ∈ fs, a ≠ f.1
      · obtain ⟨f, hf, hne⟩ := hex
        obtain ⟨fs', hp⟩ := exists_cons_perm hf
        have hlen : fs'.length = n := by
          have := hp.length_eq
          rw [List.length_cons] at this
          omega
        obtain ⟨gs, hg, hl⟩ := ih fs' (.inl ⟨f.2, rfl⟩) hlen
        have hm : meet (some a, none) (some f.1, some f.2) = (none, some f.2) := by
          simp [meet, toggle_of_ne hne]
        exact ⟨f :: gs, hp.trans (hg.cons f), by rw [hm]; simp, by rw [hm]; exact hl⟩
      · push Not at hex
        refine ⟨fs, .refl _, ?_⟩
        rw [← lives_flip]
        refine lives_of_right ?_ none
        intro a' ha'
        rw [right_flip, left_both, List.mem_map] at ha'
        obtain ⟨f, hf, rfl⟩ := ha'
        exact (hex f hf).symm

/-- A beginning that leaves just one cell filled, and rows with both values after it. -/
theorem Escapes.of_half {ps : List (Row α β)} {c : Row α β} (pre : List (Row α β))
    (fs : List (α × β)) (hp : ps.Perm (pre ++ both fs)) (hl : Lives blank pre) (hm : meets blank pre = c)
    (hc : Half c) : Escapes ps := by
  obtain ⟨gs, hg, hlg⟩ := exists_lives_of_half fs hc
  refine ⟨pre ++ both gs, hp.trans ((both_perm hg).append_left pre), ?_⟩
  rw [lives_append, hm]
  exact ⟨hl, hlg⟩

/-! ## Splitting a row -/

/-- One of the two orders of its sides lives where the whole row does. -/
theorem lives_split (c : Row α β) {a : α} {b : β} {ps : List (Row α β)}
    (h : Lives c ((some a, some b) :: ps)) :
    Lives c ((some a, none) :: (none, some b) :: ps) ∨
    Lives c ((none, some b) :: (some a, none) :: ps) := by
  obtain ⟨hm, hl⟩ := h
  by_cases hc : meet c (some a, none) = blank
  · refine .inr ⟨?_, hm, hl⟩
    intro hc'
    -- then the whole row would empty both
    have h1 : toggle c.1 a = none := congrArg Prod.fst hc
    have h2 : toggle c.2 b = none := congrArg Prod.snd hc'
    exact hm (Prod.ext h1 h2)
  · exact .inl ⟨hc, hm, hl⟩

/-- **A row may be split** into its two sides. -/
theorem Escapes.split {a : α} {b : β} {ps : List (Row α β)}
    (h : Escapes ((some a, some b) :: ps)) : Escapes ((some a, none) :: (none, some b) :: ps) := by
  obtain ⟨qs, hq, hl⟩ := h
  obtain ⟨u, v, rfl⟩ := List.append_of_mem (hq.mem_iff.mp List.mem_cons_self)
  have hps : ps.Perm (u ++ v) := (List.perm_cons _).mp (hq.trans List.perm_middle)
  rw [lives_append] at hl
  have hmid : ∀ p q : Row α β, (p :: q :: ps).Perm (u ++ p :: q :: v) := by
    intro p q
    refine ((hps.cons q).cons p).trans ?_
    exact (List.perm_middle.symm.cons p).trans List.perm_middle.symm
  rcases lives_split _ hl.2 with h | h
  · exact ⟨_, hmid _ _, (lives_append _ _ _).mpr ⟨hl.1, h⟩⟩
  · exact ⟨_, (List.Perm.swap _ _ _).trans (hmid _ _), (lives_append _ _ _).mpr ⟨hl.1, h⟩⟩

/-! ## Parity -/

/-- Distinct values on both sides: an odd number of them keeps its cell filled. -/
theorem lives_of_parity {ps : List (Row α β)} (hl : (left ps).Nodup) (hr : (right ps).Nodup)
    (h : ∀ pre post, ps = pre ++ post → pre ≠ [] →
      ¬ Even (left pre).length ∨ ¬ Even (right pre).length) : Lives blank ps := by
  refine lives_of_beginnings _ ps fun pre post hps hne hblank => ?_
  rw [meets_eq] at hblank
  have hl' : (left pre).Nodup := by
    rw [hps, left_append] at hl
    exact hl.of_append_left
  have hr' : (right pre).Nodup := by
    rw [hps, right_append] at hr
    exact hr.of_append_left
  rcases h pre post hps hne with ho | ho
  · obtain ⟨_, _, _, hc⟩ := (toggles_of_nodup _ hl').2 ho
    have := congrArg Prod.fst hblank
    rw [hc] at this
    cases this
  · obtain ⟨_, _, _, hc⟩ := (toggles_of_nodup _ hr').2 ho
    have := congrArg Prod.snd hblank
    rw [hc] at this
    cases this

omit [DecidableEq α] [DecidableEq β] in
/-- A beginning of rows with both values has as many on either side. -/
theorem length_prefix_both {fs : List (α × β)} {pre post : List (Row α β)} (qs : List (Row α β))
    (h : both fs ++ qs = pre ++ post) (hq : pre.length ≤ fs.length) :
    (left pre).length = (right pre).length := by
  have hpre : pre = both (fs.take pre.length) := by
    have h1 : (both fs ++ qs).take pre.length = pre := by rw [h, List.take_left]
    rw [List.take_append_of_le_length (by simpa [both] using hq)] at h1
    rw [← h1, both, both, List.map_take]
    simp
  rw [hpre, left_both, right_both, List.length_map, List.length_map]

/-! ## Pairs beside left values -/

theorem meets_lefts (a : Option α) (b : β) (as : List α) :
    meets (a, some b) (lefts as) = (toggles a as, some b) := by
  rw [meets_eq, left_lefts, right_lefts]
  rfl

/-- After a pair the left values can be used up, so that the right cell alone is filled. -/
theorem Escapes.of_toggles {f : α × β} {fs : List (α × β)} {as as' : List α}
    (hp : as.Perm as') (h : toggles (some f.1) as' = none) :
    Escapes (both (f :: fs) ++ lefts as) := by
  refine Escapes.of_half ((some f.1, some f.2) :: lefts as') fs ?_ ?_ rfl ?_
  · refine List.Perm.cons _ (List.perm_append_comm.trans ?_)
    exact (lefts_perm hp).append_right _
  · exact ⟨by simp [meet], lives_lefts (some f.1) f.2 as'⟩
  · refine .inl ⟨f.2, ?_⟩
    show meets (some f.1, some f.2) (lefts as') = _
    rw [meets_lefts, h]

section Paired

variable {f g : α × β} {fs : List (α × β)} {as : List α} (hA : Paired as) (hne : as ≠ [])
  (hf : f.1 ∉ as) (hg : g.1 ∉ as)
include hA hne hf hg

/-- Two pairs with one right value. -/
theorem Escapes.of_right_twice (h : f.2 = g.2) : Escapes (both (f :: g :: fs) ++ lefts as) := by
  refine Escapes.of_half ((some f.1, some f.2) :: (lefts as ++ [(some g.1, some g.2)]))
    fs ?_ ?_ rfl ?_
  · refine List.Perm.cons _ ?_
    have hsplit : lefts as ++ [(some g.1, some g.2)] ++ both fs = lefts as ++ both (g :: fs) := by
      simp [both]
    show (both (g :: fs) ++ lefts as).Perm (lefts as ++ [(some g.1, some g.2)] ++ both fs)
    rw [hsplit]
    exact List.perm_append_comm
  all_goals
    -- an odd number of distinct values: the last one stays, and `g` does not bring it
    have hnd : (f.1 :: as).Nodup := List.nodup_cons.mpr ⟨hf, hA.1⟩
    obtain ⟨w, b, hw, htog⟩ := (toggles_of_nodup _ hnd).2 (by
      rw [List.length_cons, Nat.even_add_one, not_not]; exact hA.2)
    have hb : b ∈ as := by
      cases w with
      | nil =>
        have := congrArg List.length hw
        simp only [List.length_cons, List.nil_append, List.length_nil] at this
        exact absurd (List.length_eq_zero_iff.mp (by omega)) hne
      | cons x w =>
        have h2 : as = w ++ [b] := (List.cons.inj hw).2
        rw [h2]
        simp
    have hbg : b ≠ g.1 := fun heq => hg (heq ▸ hb)
    have hm : meets (some f.1, some f.2) (lefts as) = (some b, some f.2) := by
      rw [meets_lefts]
      exact congrArg (·, some f.2) htog
    have hlast : meet (some b, some f.2) (some g.1, some g.2) = (none, some f.2) := by
      simp [meet, toggle_of_ne hbg, h]
  · refine ⟨by simp [meet], ?_⟩
    show Lives (some f.1, some f.2) _
    rw [lives_append, hm]
    exact ⟨lives_lefts _ _ _, by rw [hlast]; simp, trivial⟩
  · refine .inl ⟨f.2, ?_⟩
    show meets (some f.1, some f.2) _ = _
    rw [meets_append, hm, meets_cons, hlast, meets_nil]

/-- Three pairs with different right values, two of which have one left value. -/
theorem Escapes.of_left_twice {k : α × β} (hk : k.1 = g.1) (hfg : f.2 ≠ g.2) :
    Escapes (both (f :: g :: k :: fs) ++ lefts as) := by
  cases as with
  | nil => exact absurd rfl hne
  | cons a as =>
    have hfa : f.1 ≠ a := fun heq => hf (heq ▸ List.mem_cons_self)
    have h1 : meet (some f.1, some f.2) (some a, none) = (none, some f.2) := by
      simp [meet, toggle_of_ne hfa]
    have h2 : meet (none, some f.2) (some g.1, some g.2) = (some g.1, none) := by
      simp [meet, toggle_of_ne hfg]
    have h3 : meet (some g.1, none) (some k.1, some k.2) = (some g.1, some k.2) := by
      simp [meet, hk]
    have h4 : meets (some g.1, some k.2) (lefts as) = (none, some k.2) := by
      rw [meets_lefts]
      have hnd : (g.1 :: as).Nodup := List.nodup_cons.mpr
        ⟨fun hmem => hg (List.mem_cons_of_mem a hmem), (List.nodup_cons.mp hA.1).2⟩
      have heven : Even (g.1 :: as).length := hA.2
      exact congrArg (·, some k.2) (toggles_of_paired ⟨hnd, heven⟩)
    refine Escapes.of_half ((some f.1, some f.2) :: (some a, none) :: (some g.1, some g.2) ::
      (some k.1, some k.2) :: lefts as) fs ?_ ?_ rfl ?_
    · refine List.Perm.cons _ ?_
      show ((some g.1, some g.2) :: (some k.1, some k.2) :: (both fs ++ (some a, none) ::
        lefts as)).Perm _
      have hmid : (both fs ++ (some a, none) :: lefts as).Perm
          ((some a, none) :: (lefts as ++ both fs)) :=
        List.perm_middle.trans (List.perm_append_comm.cons _)
      refine ((hmid.cons _).cons _).trans ?_
      exact ((List.Perm.swap _ _ _).cons _).trans (List.Perm.swap _ _ _)
    · refine ⟨by simp [meet], ?_⟩
      show Lives (some f.1, some f.2) _
      refine ⟨by rw [h1]; simp, ?_⟩
      rw [h1]
      refine ⟨by rw [h2]; simp, ?_⟩
      rw [h2]
      refine ⟨by rw [h3]; simp, ?_⟩
      rw [h3]
      exact lives_lefts _ _ _
    · refine .inl ⟨k.2, ?_⟩
      show meets (some f.1, some f.2) _ = _
      rw [meets_cons, h1, meets_cons, h2, meets_cons, h3, h4]

end Paired

/-- Distinct pairs, odd in number: one left value goes after the first pair, the others last. -/
theorem Escapes.of_odd {f : α × β} {fs : List (α × β)} {a : α} {as : List α}
    (hl : (f.1 :: a :: fs.map Prod.fst).Nodup) (hr : ((f :: fs).map Prod.snd).Nodup)
    (hodd : ¬ Even (f :: fs).length) : Escapes (both (f :: fs) ++ lefts (a :: as)) := by
  have hsplit : (both (f :: fs) ++ lefts (a :: as) : List (Row α β)).Perm
      ((some f.1, some f.2) :: (some a, none) :: both fs ++ lefts as) :=
    List.perm_middle.cons (some f.1, some f.2)
  refine ⟨_, hsplit, ?_⟩
  have hright : right ((some f.1, some f.2) :: (some a, none) :: both fs : List (Row α β)) =
      (f :: fs).map Prod.snd := congrArg (f.2 :: ·) (right_both fs)
  have hleft : left ((some f.1, some f.2) :: (some a, none) :: both fs : List (Row α β)) =
      f.1 :: a :: fs.map Prod.fst := congrArg (f.1 :: a :: ·) (left_both fs)
  rw [lives_append]
  constructor
  · refine lives_of_parity (hleft ▸ hl) (hright ▸ hr) ?_
    rintro (_ | ⟨p, _ | ⟨q, pre⟩⟩) post hps hne
    · exact absurd rfl hne
    · obtain ⟨rfl, -⟩ := List.cons.inj hps
      exact .inl (by simp [left])
    · obtain ⟨rfl, hps₁⟩ := List.cons.inj hps
      obtain ⟨rfl, hps₂⟩ := List.cons.inj hps₁
      change both fs = pre ++ post at hps₂
      have hlen : pre.length ≤ fs.length := by
        have := congrArg List.length hps₂
        rw [both, List.length_map, List.length_append] at this
        omega
      have heq := length_prefix_both [] (by rw [List.append_nil]; exact hps₂) hlen
      have h1 : (left ((some f.1, some f.2) :: (some a, none) :: pre)).length =
          (left pre).length + 2 := rfl
      have h2 : (right ((some f.1, some f.2) :: (some a, none) :: pre)).length =
          (right pre).length + 1 := rfl
      rw [h1, h2, heq]
      grind
  · obtain ⟨_, y, _, hy⟩ := (toggles_of_nodup _ hr).2 (by rw [List.length_map]; exact hodd)
    rw [meets_eq, hright, hy]
    exact lives_lefts _ y as

/-- The left values are distinct, even in number and not those of the pairs. -/
theorem escapes_of_fresh {fs : List (α × β)} {as : List α} (hne : as ≠ [])
    (hS : ¬ Uniform (fs.map Prod.snd))
    (hP : ¬ (Paired (fs.map Prod.fst ++ as) ∧ Paired (fs.map Prod.snd)))
    (hE : ¬ Fork fs as ([] : List β)) (hfresh : ∀ f ∈ fs, Paired as ∧ f.1 ∉ as) :
    Escapes (both fs ++ lefts as) := by
  -- there are two pairs
  obtain ⟨f, hf, g, hg, hfg⟩ : ∃ f ∈ fs, ∃ g ∈ fs, f.2 ≠ g.2 := by
    by_contra hall
    push Not at hall
    refine hS fun a ha b hb => ?_
    obtain ⟨f, hf, rfl⟩ := List.mem_map.mp ha
    obtain ⟨g, hg, rfl⟩ := List.mem_map.mp hb
    exact hall f hf g hg
  have hA : Paired as := (hfresh f hf).1
  have hfr : ∀ k ∈ fs, k.1 ∉ as := fun k hk => (hfresh k hk).2
  by_cases hr : (fs.map Prod.snd).Nodup
  · by_cases hl : (fs.map Prod.fst).Nodup
    · -- everything is distinct: the pairs are odd in number
      have hnd : (fs.map Prod.fst ++ as).Nodup := by
        refine hl.append hA.1 ?_
        intro a ha has
        obtain ⟨k, hk, rfl⟩ := List.mem_map.mp ha
        exact hfr k hk has
      have hodd : ¬ Even fs.length := by
        intro he
        refine hP ⟨⟨hnd, ?_⟩, hr, by rw [List.length_map]; exact he⟩
        rw [List.length_append, List.length_map]
        exact he.add hA.2
      obtain ⟨a, as', rfl⟩ := List.exists_cons_of_ne_nil hne
      cases fs with
      | nil => cases hf
      | cons k fs =>
        refine Escapes.of_odd ?_ hr hodd
        have : (k.1 :: (fs.map Prod.fst ++ a :: as')).Nodup := hnd
        have hp : (k.1 :: a :: fs.map Prod.fst ++ as').Perm (k.1 :: (fs.map Prod.fst ++ a :: as')) :=
          List.perm_middle.symm.cons k.1
        exact (hp.nodup_iff.mpr this).of_append_left
    · obtain ⟨g, k, fs', hp, hgk⟩ := exists_perm_of_not_nodup_map Prod.fst hl
      have hmem : ∀ x, x ∈ g :: k :: fs' → x ∈ fs := fun x hx => hp.mem_iff.mpr hx
      have hr' := (hp.map Prod.snd).nodup_iff.mp hr
      cases fs' with
      | nil =>
        -- just two pairs with one left value
        refine absurd ?_ hE
        have hshared : Uniform ([g, k].map Prod.fst) := by
          intro a ha b hb
          simp only [List.map_cons, List.map_nil, List.mem_cons, List.not_mem_nil, or_false, hgk,
            or_self] at ha hb
          rw [ha, hb]
        exact {
          no_right := rfl
          some_left := hne
          paired := hA
          two := hp.length_eq
          shared := hshared.perm (hp.symm.map _)
          apart := hr
          fresh := hfr }
      | cons f fs' =>
        have hp' : (both fs ++ lefts as : List (Row α β)).Perm (both (f :: g :: k :: fs') ++ lefts as) :=
          (both_perm (hp.trans (((List.Perm.swap f k fs').cons g).trans
            (List.Perm.swap f g (k :: fs'))))).append_right _
        refine Escapes.perm (Escapes.of_left_twice hA hne (hfr f (hmem f (by simp)))
          (hfr g (hmem g (by simp))) hgk.symm ?_) hp'.symm
        rintro heq
        simp only [List.map_cons, List.nodup_cons, List.mem_cons, heq] at hr'
        simp at hr'
  · obtain ⟨f, g, fs', hp, heq⟩ := exists_perm_of_not_nodup_map Prod.snd hr
    have hf : f ∈ fs := hp.mem_iff.mpr (by simp)
    have hg : g ∈ fs := hp.mem_iff.mpr (by simp)
    exact (Escapes.of_right_twice hA hne (hfr f hf) (hfr g hg) heq).perm
      ((both_perm hp).symm.append_right _)

/-- **Pairs and left values** escape unless both sides get their values in pairs or they fork. -/
theorem escapes_of_lefts {fs : List (α × β)} {as : List α} (hne : as ≠ [])
    (hS : ¬ Uniform (fs.map Prod.snd))
    (hP : ¬ (Paired (fs.map Prod.fst ++ as) ∧ Paired (fs.map Prod.snd)))
    (hE : ¬ Fork fs as ([] : List β)) : Escapes (both fs ++ lefts as) := by
  by_cases hA : Uniform as
  · -- one left value: it comes first
    obtain ⟨a, as', rfl⟩ := List.exists_cons_of_ne_nil hne
    have hall : ∀ b ∈ as', b = a := fun b hb =>
      hA b (List.mem_cons_of_mem a hb) a List.mem_cons_self
    refine Escapes.of_half (lefts (a :: as')) fs List.perm_append_comm ?_ rfl ?_
    · rw [← lives_flip]
      show Lives blank ((none, some a) :: flip (lefts as'))
      refine ⟨by simp [meet], lives_of_right ?_ none⟩
      rw [right_flip, left_lefts]
      exact hall
    · refine .inr ⟨a, ?_⟩
      rw [meets_eq, left_lefts, right_lefts, toggles_cons]
      exact congrArg (·, none) (toggles_some_of_forall hall)
  · by_cases htog : ∃ f ∈ fs, ∃ as', as.Perm as' ∧ toggles (some f.1) as' = none
    · obtain ⟨f, hf, as', hp, h⟩ := htog
      obtain ⟨fs', hp'⟩ := exists_cons_perm hf
      exact (Escapes.of_toggles hp h).perm ((both_perm hp').symm.append_right _)
    push Not at htog
    have hfresh : ∀ f ∈ fs, Paired as ∧ f.1 ∉ as := by
      intro f hf
      refine (exists_perm_toggles_none hA f.1).resolve_left ?_
      rintro ⟨as', hp, h⟩
      exact htog f hf as' hp h
    exact escapes_of_fresh hne hS hP hE hfresh

/-! ## Pairs only -/

/-- Two pairs that share one side leave just that side filled. -/
theorem escapes_of_not_diagonal {fs : List (α × β)} (h : ¬ Diagonal fs) : Escapes (both fs) := by
  unfold Diagonal at h
  push Not at h
  obtain ⟨f, hf, g, hg, hne, himp⟩ := h
  obtain ⟨fs', hp⟩ := exists_cons_cons_perm hf hg hne.symm
  refine Escapes.of_half [(some f.1, some f.2), (some g.1, some g.2)] fs'
    (both_perm hp) ?_ rfl ?_
  all_goals by_cases h1 : f.1 = g.1
  · refine ⟨by simp [meet], ?_, trivial⟩
    simp [meet, h1]
  · refine ⟨by simp [meet], ?_, trivial⟩
    simp [meet, himp h1]
  · refine .inr ⟨f.1, ?_⟩
    have h2 : f.2 ≠ g.2 := fun h2 => hne (Prod.ext h1 h2)
    simp [meet, h1, toggle_of_ne h2]
  · refine .inl ⟨f.2, ?_⟩
    simp [meet, himp h1, toggle_of_ne h1]

/-! ## The two sides of one row beside pairs -/

section Sides

variable {a : α} {x : β} {f g : α × β} {fs : List (α × β)} (hfa : a ≠ f.1) (hfx : f.2 ≠ x)
include hfa hfx

theorem Escapes.of_twice : Escapes ((some a, none) :: (none, some x) :: both (f :: f :: fs)) := by
  refine Escapes.of_half (c := (some f.1, none)) [(some a, none), (some f.1, some f.2),
    (some f.1, some f.2), (none, some x)] fs ?_ ?_ ?_ (.inr ⟨f.1, rfl⟩)
  · refine List.Perm.cons _ ?_
    exact (List.Perm.swap _ _ _).trans ((List.Perm.swap _ _ _).cons _)
  · refine ⟨?_, ?_, ?_, ?_, trivial⟩ <;> simp [meet, toggle_of_ne hfa]
  · simp [meet, toggle_of_ne hfa, toggle_of_ne hfx]

omit hfx in
theorem Escapes.of_another (hfg : f.2 ≠ g.2) (hga : g.1 ≠ a) :
    Escapes ((some a, none) :: (none, some x) :: both (f :: g :: (a, x) :: fs)) := by
  refine Escapes.of_half (c := (none, some x)) [(some a, none), (some f.1, some f.2),
    (some g.1, some g.2), (none, some x), (some a, some x)] fs ?_ ?_ ?_ (.inl ⟨x, rfl⟩)
  · refine List.Perm.cons _ ?_
    exact (List.Perm.swap _ _ _).trans ((List.Perm.swap _ _ _).cons _)
  · refine ⟨?_, ?_, ?_, ?_, ?_, trivial⟩ <;>
      simp [meet, toggle_of_ne hfa, toggle_of_ne hfg, toggle_of_ne hga]
  · simp [meet, toggle_of_ne hfa, toggle_of_ne hfg, toggle_of_ne hga]

theorem Escapes.of_itself (h : ∀ k ∈ fs, k.2 = x) :
    Escapes ((some a, none) :: (none, some x) :: both (f :: (a, x) :: fs)) := by
  refine ⟨[(some a, none), (some f.1, some f.2), (some a, some x), (none, some x)] ++ both fs,
    ?_, ?_⟩
  · refine List.Perm.cons _ ?_
    exact (List.Perm.swap _ _ _).trans ((List.Perm.swap _ _ _).cons _)
  · rw [lives_append]
    constructor
    · refine ⟨?_, ?_, ?_, ?_, trivial⟩ <;> simp [meet, toggle_of_ne hfa, toggle_of_ne hfx]
    · have hm : meets blank [(some a, none), (some f.1, some f.2), (some a, some x),
          (none, some x)] = (some a, some x) := by
        simp [meet, toggle_of_ne hfa, toggle_of_ne hfx]
      rw [hm]
      refine lives_of_right ?_ _
      intro b hb
      rw [right_both, List.mem_map] at hb
      obtain ⟨k, hk, rfl⟩ := hb
      exact h k hk

end Sides

/-- Distinct pairs, even in number: the two sides come first and last. -/
theorem Escapes.of_even {a : α} {x : β} {fs : List (α × β)} (hl : (a :: fs.map Prod.fst).Nodup)
    (hr : (x :: fs.map Prod.snd).Nodup) (he : Even fs.length) :
    Escapes ((some a, none) :: (none, some x) :: both fs) := by
  refine ⟨(some a, none) :: both fs ++ [(none, some x)], ?_, ?_⟩
  · exact (List.perm_append_singleton _ _).symm.cons _
  have hleft : left ((some a, none) :: both fs ++ [(none, some x)] : List (Row α β)) =
      a :: fs.map Prod.fst := by
    rw [left_append]
    exact (List.append_nil _).trans (congrArg (a :: ·) (left_both fs))
  have hright : right ((some a, none) :: both fs ++ [(none, some x)] : List (Row α β)) =
      fs.map Prod.snd ++ [x] := by
    rw [right_append]
    exact congrArg (· ++ [x]) (right_both fs)
  refine lives_of_parity (hleft ▸ hl) ?_ ?_
  · rw [hright]
    exact ((List.perm_append_singleton x _).nodup_iff).mpr hr
  rintro (_ | ⟨p, pre⟩) post hps hne
  · exact absurd rfl hne
  · obtain ⟨rfl, hps₁⟩ := List.cons.inj hps
    change both fs ++ [(none, some x)] = pre ++ post at hps₁
    have h1 : (left ((some a, none) :: pre : List (Row α β))).length = (left pre).length + 1 := rfl
    have h2 : (right ((some a, none) :: pre : List (Row α β))).length = (right pre).length := rfl
    rw [h1, h2]
    by_cases hlen : pre.length ≤ fs.length
    · rw [length_prefix_both _ hps₁ hlen]
      grind
    · -- all rows: the left values are odd in number
      have hlens := congrArg List.length hps₁
      rw [List.length_append, List.length_append, List.length_singleton, both,
        List.length_map] at hlens
      have hpost : post = [] := List.length_eq_zero_iff.mp (by omega)
      rw [hpost, List.append_nil] at hps₁
      left
      rw [← hps₁, left_append, List.length_append, left_both, List.length_map]
      exact fun hodd => (Nat.even_add_one.mp hodd) he

/-- **The two sides of a row beside pairs** with which it is diagonal escape unless both sides get
their values in pairs. -/
theorem escapes_of_diagonal {a : α} {x : β} {fs : List (α × β)} (hd : Diagonal ((a, x) :: fs))
    (hu : ¬ Uniform (a :: fs.map Prod.fst))
    (hP : ¬ (Paired (a :: fs.map Prod.fst) ∧ Paired (x :: fs.map Prod.snd))) :
    Escapes ((some a, none) :: (none, some x) :: both fs) := by
  have apart : ∀ k ∈ fs, k ≠ (a, x) → a ≠ k.1 ∧ k.2 ≠ x := by
    intro k hk hne
    have := (hd k (List.mem_cons_of_mem _ hk) (a, x) List.mem_cons_self).resolve_left hne
    exact ⟨this.1.symm, this.2⟩
  have sides : ∀ {gs : List (α × β)}, fs.Perm gs →
      Escapes ((some a, none) :: (none, some x) :: both gs) →
      Escapes ((some a, none) :: (none, some x) :: both fs) :=
    fun hp h => h.perm (((both_perm hp).symm.cons _).cons _)
  obtain ⟨f, hf, hne⟩ : ∃ f ∈ fs, f ≠ (a, x) := by
    by_contra hall
    push Not at hall
    have same : ∀ b ∈ a :: fs.map Prod.fst, b = a := by
      intro b hb
      rcases List.mem_cons.mp hb with rfl | hb
      · rfl
      · obtain ⟨k, hk, rfl⟩ := List.mem_map.mp hb
        rw [hall k hk]
    exact hu fun b hb c hc => (same b hb).trans (same c hc).symm
  obtain ⟨hfa, hfx⟩ := apart f hf hne
  obtain ⟨fs₁, hp₁⟩ := exists_cons_perm hf
  by_cases htwice : ∃ k ∈ fs, k ≠ (a, x) ∧ ∃ l, fs.Perm (k :: k :: l)
  · obtain ⟨k, hk, hk', l, hp⟩ := htwice
    exact sides hp (Escapes.of_twice (apart k hk hk').1 (apart k hk hk').2)
  push Not at htwice
  by_cases hself : (a, x) ∈ fs
  · by_cases hother : ∃ g ∈ fs₁, g ≠ (a, x)
    · -- two other pairs: they differ on both sides
      obtain ⟨g, hg, hg'⟩ := hother
      obtain ⟨fs₂, hp₂⟩ := exists_cons_perm hg
      have hgf : f ≠ g := by
        rintro rfl
        exact htwice f hf hne fs₂ (hp₁.trans (hp₂.cons f))
      have hgfs : g ∈ fs := hp₁.mem_iff.mpr (List.mem_cons_of_mem f hg)
      have hapart : f.2 ≠ g.2 := by
        have := hd f (List.mem_cons_of_mem _ hf) g (List.mem_cons_of_mem _ hgfs)
        exact (this.resolve_left hgf).2
      have hself₂ : (a, x) ∈ fs₂ := by
        have := (hp₁.trans (hp₂.cons f)).mem_iff.mp hself
        rcases List.mem_cons.mp this with h | h
        · exact absurd h.symm hne
        · exact (List.mem_cons.mp h).resolve_left hg'.symm
      obtain ⟨fs₃, hp₃⟩ := exists_cons_perm hself₂
      exact sides (hp₁.trans ((hp₂.trans (hp₃.cons g)).cons f))
        (Escapes.of_another hfa hapart (apart g hgfs hg').1.symm)
    · push Not at hother
      have hself₁ : (a, x) ∈ fs₁ :=
        (List.mem_cons.mp (hp₁.mem_iff.mp hself)).resolve_left hne.symm
      obtain ⟨fs₂, hp₂⟩ := exists_cons_perm hself₁
      refine sides (hp₁.trans (hp₂.cons f)) (Escapes.of_itself hfa hfx fun k hk => ?_)
      rw [hother k (hp₂.mem_iff.mpr (List.mem_cons_of_mem _ hk))]
  · -- the pairs are distinct, and then so are the values on both sides
    have nodup_map : ∀ {γ : Type} (h : α × β → γ), (∀ p ∈ fs, ∀ q ∈ fs, h p = h q → p = q) →
        (fs.map h).Nodup := by
      intro γ h hinj
      by_contra hn
      obtain ⟨p, q, l, hp, heq⟩ := exists_perm_of_not_nodup_map h hn
      have hmemp : p ∈ fs := hp.mem_iff.mpr (by simp)
      have hpq := hinj p hmemp q (hp.mem_iff.mpr (by simp)) heq
      rw [← hpq] at hp
      exact htwice p hmemp (fun h => hself (h ▸ hmemp)) l hp
    have hl : (a :: fs.map Prod.fst).Nodup := by
      refine List.nodup_cons.mpr ⟨fun hmem => ?_, nodup_map Prod.fst fun p hp q hq heq => ?_⟩
      · obtain ⟨k, hk, heq⟩ := List.mem_map.mp hmem
        exact (apart k hk fun h => hself (h ▸ hk)).1 heq.symm
      · have := hd p (List.mem_cons_of_mem _ hp) q (List.mem_cons_of_mem _ hq)
        exact this.resolve_right fun h => h.1 heq
    have hr : (x :: fs.map Prod.snd).Nodup := by
      refine List.nodup_cons.mpr ⟨fun hmem => ?_, nodup_map Prod.snd fun p hp q hq heq => ?_⟩
      · obtain ⟨k, hk, heq⟩ := List.mem_map.mp hmem
        exact (apart k hk fun h => hself (h ▸ hk)).2 heq
      · have := hd p (List.mem_cons_of_mem _ hp) q (List.mem_cons_of_mem _ hq)
        exact this.resolve_right fun h => h.2 heq
    refine Escapes.of_even hl hr ?_
    by_contra hodd
    refine hP ⟨⟨hl, ?_⟩, hr, ?_⟩
    · rw [List.length_cons, List.length_map]
      exact Nat.even_add_one.mpr hodd
    · rw [List.length_cons, List.length_map]
      exact Nat.even_add_one.mpr hodd

/-! ## All rows -/

/-- Different values on both sides, and no trap. -/
structure Free (ps : List (Row α β)) : Prop where
  no_blank : blank ∉ ps
  left : ¬ Uniform (left ps)
  right : ¬ Uniform (right ps)
  no_trap : ¬ Trapped ps

omit [DecidableEq α] [DecidableEq β] in
theorem Free.flip {ps : List (Row α β)} (h : Free ps) : Free (flip ps) where
  no_blank := blank_notMem_flip h.no_blank
  left := by
    rw [left_flip]
    exact h.right
  right := by
    rw [right_flip]
    exact h.left
  no_trap ht := h.no_trap (by simpa using ht.flip)

/-- No row brings only a right value. -/
theorem escapes_one_sided {ps : List (Row α β)} (h : Free ps) (hr : onlyRight ps = []) :
    Escapes ps := by
  have hperm : ps.Perm (both (pairs ps) ++ lefts (onlyLeft ps)) := by
    have := perm_kinds h.no_blank
    rwa [hr, rights, List.map_nil, List.append_nil] at this
  have hright := right_of_onlyRight_nil hr
  by_cases hl : onlyLeft ps = []
  · rw [hl, lefts, List.map_nil, List.append_nil] at hperm
    refine Escapes.perm (escapes_of_not_diagonal fun hd => ?_) hperm.symm
    exact h.no_trap (.inr (.inl ⟨hl, hr, hd⟩))
  · refine Escapes.perm (escapes_of_lefts hl ?_ ?_ ?_) hperm.symm
    · rw [← hright]
      exact h.right
    · rintro ⟨h1, h2⟩
      rw [← hright] at h2
      exact h.no_trap (.inl ⟨h1.perm (left_perm ps).symm, h2⟩)
    · intro hf
      rw [← hr] at hf
      exact h.no_trap (.inr (.inr (.inl hf)))

/-- A fork one of whose pairs is split: its right value joins another row. -/
theorem escapes_of_fork_split {a : α} {x : β} {ps : List (Row α β)}
    (hb : blank ∉ (some a, some x) :: ps)
    (h : Fork (pairs ((some a, some x) :: ps)) (onlyLeft ((some a, some x) :: ps))
      (onlyRight ((some a, some x) :: ps)))
    (ih : ∀ qs : List (Row α β), qs.length ≤ ps.length + 1 → Free qs → Escapes qs) :
    Escapes ((some a, none) :: (none, some x) :: ps) := by
  obtain ⟨hnone, hsome, -, htwo, hshared, hapart, hfresh⟩ := h
  change onlyRight ps = [] at hnone
  change onlyLeft ps ≠ [] at hsome
  change ((a, x) :: pairs ps).length = 2 at htwo
  obtain ⟨⟨c, y⟩, hc⟩ : ∃ f, pairs ps = [f] := List.length_eq_one_iff.mp (by simpa using htwo)
  have hpairs : pairs ((some a, some x) :: ps) = [(a, x), (c, y)] := congrArg ((a, x) :: ·) hc
  rw [hpairs] at hshared hapart hfresh
  obtain rfl : c = a := hshared c (by simp) a (by simp)
  obtain ⟨a', as, has⟩ := List.exists_cons_of_ne_nil hsome
  have hne : c ≠ a' := by
    intro heq
    refine hfresh (c, x) (by simp) ?_
    show c ∈ onlyLeft ps
    rw [has, heq]
    exact List.mem_cons_self
  have hxy : x ≠ y := by simpa using hapart
  have hperm : ps.Perm ((some c, some y) :: (some a', none) :: lefts as) := by
    have := perm_kinds fun hmem => hb (List.mem_cons_of_mem _ hmem)
    rwa [hc, has, hnone, rights, List.map_nil, List.append_nil] at this
  -- the right value moves to another left one
  have hfree : Free ((some a', some x) :: (some c, none) :: (some c, some y) :: lefts as) := by
    constructor
    · simp [lefts]
    · exact fun hu => hne (hu c (by simp [left]) a' (by simp [left]))
    · exact fun hu => hxy (hu x (by simp [right]) y (by simp [right]))
    · rintro (⟨hp, -⟩ | ⟨hnil, -, -⟩ | hf | hf)
      · have := hp.1
        simp [left] at this
      · cases hnil
      · exact hne (hf.shared c (by simp [pairs]) a' (by simp [pairs]))
      · refine hf.some_left ?_
        rw [onlyLeft_flip]
        simp [onlyRight, lefts]
  have hlen : ((some a', some x) :: (some c, none) :: (some c, some y) :: lefts as :
      List (Row α β)).length ≤ ps.length + 1 := by
    rw [hperm.length_eq]
    simp
  refine (ih _ hlen hfree).split.perm ?_
  have h1 : ((some c, none) :: (none, some x) :: ps).Perm ((some c, none) :: (none, some x) ::
      (some c, some y) :: (some a', none) :: lefts as) := (hperm.cons _).cons _
  refine List.Perm.trans ?_ h1.symm
  refine List.Perm.trans ?_ ((((List.Perm.swap _ _ _).cons _).cons _))
  exact (@List.perm_middle _ _ [(some a', none), (none, some x)] _).trans
    ((List.Perm.swap _ _ _).cons _)

/-- Two rows of `ps`, which bring one side each, become one. -/
structure Joined (a : α) (x : β) (rs : List (Row α β)) : Prop where
  no_blank : blank ∉ (some a, some x) :: rs
  left : ¬ Uniform (left ((some a, some x) :: rs))
  right : ¬ Uniform (right ((some a, some x) :: rs))
  not_paired : ¬ (Paired (Cells.left ((some a, some x) :: rs)) ∧
    Paired (Cells.right ((some a, some x) :: rs)))

omit [DecidableEq α] [DecidableEq β] in
theorem Free.joined {ps rs : List (Row α β)} {a : α} {x : β} (h : Free ps)
    (hp : ps.Perm ((some a, none) :: (none, some x) :: rs)) : Joined a x rs where
  no_blank hmem := by
    refine h.no_blank (hp.mem_iff.mpr ?_)
    simpa using hmem
  left hu := h.left (hu.perm (hp.symm.filterMap Prod.fst))
  right hu := h.right (hu.perm (hp.symm.filterMap Prod.snd))
  not_paired := by
    rintro ⟨h1, h2⟩
    exact h.no_trap (.inl ⟨h1.perm (hp.symm.filterMap Prod.fst),
      h2.perm (hp.symm.filterMap Prod.snd)⟩)

/-- Split again, the rows escape: by the induction hypothesis if the joined rows are free, and
otherwise because their trap needs the joined row. -/
theorem escapes_of_joined {a : α} {x : β} {rs : List (Row α β)} (h : Joined a x rs)
    (ih : ∀ qs : List (Row α β), qs.length ≤ rs.length + 1 → Free qs → Escapes qs) :
    Escapes ((some a, none) :: (none, some x) :: rs) := by
  by_cases ht : Trapped ((some a, some x) :: rs)
  · rcases ht with hp | ⟨hl, hr, hd⟩ | hf | hf
    · exact absurd hp h.not_paired
    · have hb : blank ∉ rs := fun hmem => h.no_blank (List.mem_cons_of_mem _ hmem)
      change onlyLeft rs = [] at hl
      change onlyRight rs = [] at hr
      change Diagonal ((a, x) :: pairs rs) at hd
      have hperm : rs.Perm (both (pairs rs)) := by
        have := perm_kinds hb
        rwa [hl, hr, rights, lefts, List.map_nil, List.map_nil, List.append_nil,
          List.append_nil] at this
      have hleft : Cells.left ((some a, some x) :: rs) = a :: (pairs rs).map Prod.fst :=
        congrArg (a :: ·) (left_of_onlyLeft_nil hl)
      have hright : Cells.right ((some a, some x) :: rs) = x :: (pairs rs).map Prod.snd :=
        congrArg (x :: ·) (right_of_onlyRight_nil hr)
      refine Escapes.perm (escapes_of_diagonal hd ?_ ?_) ((hperm.symm.cons _).cons _)
      · rw [← hleft]
        exact h.left
      · rw [← hleft, ← hright]
        exact h.not_paired
    · exact escapes_of_fork_split h.no_blank hf ih
    · have ih' : ∀ qs : List (Row β α), qs.length ≤ (flip rs).length + 1 → Free qs →
          Escapes qs := by
        intro qs hq hqf
        refine Escapes.of_flip (ih (flip qs) ?_ hqf.flip)
        simpa [flip] using hq
      have hsplit : Escapes ((some x, none) :: (none, some a) :: flip rs) :=
        escapes_of_fork_split (blank_notMem_flip h.no_blank) hf ih'
      have hswap : Escapes ((none, some x) :: (some a, none) :: rs) := Escapes.of_flip hsplit
      exact hswap.perm (List.Perm.swap _ _ _)
  · exact (ih _ (by simp) ⟨h.no_blank, h.left, h.right, ht⟩).split

/-- **Rows that escape.** With different values on both sides some order of the rows keeps one of
the cells filled, unless the rows are trapped. -/
theorem escapes {ps : List (Row α β)} (h : Free ps) : Escapes ps := by
  obtain ⟨n, hn⟩ : ∃ n, ps.length ≤ n := ⟨_, le_rfl⟩
  induction n generalizing ps with
  | zero =>
    have hnil : ps = [] := List.length_eq_zero_iff.mp (by omega)
    exact absurd (fun a ha => by rw [hnil] at ha; cases ha) h.left
  | succ n ih =>
    by_cases hr : onlyRight ps = []
    · exact escapes_one_sided h hr
    by_cases hl : onlyLeft ps = []
    · refine Escapes.of_flip (escapes_one_sided h.flip ?_)
      rw [onlyRight_flip]
      exact hl
    obtain ⟨a, ha⟩ := List.exists_mem_of_ne_nil _ hl
    obtain ⟨x, hx⟩ := List.exists_mem_of_ne_nil _ hr
    have hx' : (none, some x) ∈ ps := by
      rw [← onlyLeft_flip, mem_onlyLeft] at hx
      simpa [flip] using hx
    obtain ⟨rs, hp⟩ := exists_cons_cons_perm (mem_onlyLeft.mp ha) hx' (by simp)
    refine Escapes.perm ?_ hp.symm
    exact escapes_of_joined (h.joined hp) fun qs hq hf => ih hf (by
      have := hp.length_eq
      simp only [List.length_cons] at this
      omega)

/-! ## Lists whose order matters -/

/-- A reordering of what a filter keeps comes from a reordering of the list. -/
theorem exists_perm_filterMap {γ δ : Type} (h : γ → Option δ) :
    ∀ (l : List γ) {m : List δ}, (l.filterMap h).Perm m → ∃ l', l.Perm l' ∧ l'.filterMap h = m
  | l, [], hp => ⟨l, .refl l, List.perm_nil.mp hp⟩
  | l, b :: m, hp => by
    obtain ⟨a, ha, hab⟩ := List.mem_filterMap.mp (hp.mem_iff.mpr List.mem_cons_self)
    obtain ⟨l₁, hl⟩ := exists_cons_perm ha
    have hcons : (b :: l₁.filterMap h).Perm (b :: m) := by
      have := (hl.filterMap h).symm.trans hp
      rwa [List.filterMap_cons_some hab] at this
    obtain ⟨l', hl', hm⟩ := exists_perm_filterMap h l₁ ((List.perm_cons b).mp hcons)
    exact ⟨a :: l', hl.trans (hl'.cons a), by rw [List.filterMap_cons_some hab, hm]⟩

section Order

variable {ps : List (Row α β)} (h : ∀ qs, ps.Perm qs → outcome qs = outcome ps)
include h

/-- If one order lives, all do, and the left cell holds the same in the end. -/
theorem toggles_left_of_lives {rs : List (Row α β)} (hr : ps.Perm rs) (hl : Lives blank rs) :
    Uniform (left ps) ∨ Paired (left ps) := by
  rw [← toggles_perm_iff]
  have key : ∀ qs, ps.Perm qs → toggles none (left qs) = toggles none (left rs) := by
    intro qs hq
    have heq : outcome qs = some (meets blank rs) := by
      rw [h qs hq, ← h rs hr, outcome_eq_some hl]
    by_cases hlq : Lives blank qs
    · rw [outcome_eq_some hlq, meets_eq, meets_eq] at heq
      exact congrArg Prod.fst (Option.some.inj heq)
    · rw [outcome_eq_none hlq] at heq
      cases heq
  intro l' hl'
  obtain ⟨qs, hq, rfl⟩ := exists_perm_filterMap Prod.fst ps hl'
  exact (key qs hq).trans (key ps (.refl ps)).symm

/-- One right value and different left ones. -/
theorem pinned_of_outcome (hl : ¬ Uniform (left ps))
    (hr : Uniform (right ps)) (hne : right ps ≠ []) : Pinned ps := by
  -- a row with the right value first: that order lives
  obtain ⟨b, hbm⟩ := List.exists_mem_of_ne_nil _ hne
  obtain ⟨a, hmem⟩ := mem_right.mp hbm
  obtain ⟨rs, hp⟩ := exists_cons_perm hmem
  have hlive : Lives blank ((a, some b) :: rs) := by
    have hall : ∀ b' ∈ right rs, b' = b := by
      intro b' hb'
      have hmem' : b' ∈ right ps := (hp.filterMap Prod.snd).mem_iff.mpr (List.mem_cons_of_mem b hb')
      exact hr b' hmem' b hbm
    cases a with
    | none => exact ⟨by simp [meet], lives_of_right hall none⟩
    | some a => exact ⟨by simp [meet], lives_of_right hall (some a)⟩
  have hpaired : Paired (left ps) := (toggles_left_of_lives h hp hlive).resolve_left hl
  refine ⟨hr, hpaired, ?_⟩
  by_contra hfree
  -- two rows without the right value: in front they empty both cells
  have hnd : (onlyLeft ps).Nodup :=
    ((left_perm ps).nodup_iff.mp hpaired.1).of_append_right
  obtain ⟨x, y, m, hm⟩ : ∃ x y m, onlyLeft ps = x :: y :: m := by
    match honly : onlyLeft ps with
    | [] => simp [honly] at hfree
    | [_] => simp [honly] at hfree
    | x :: y :: m => exact ⟨x, y, m, rfl⟩
  have hxy : x ≠ y := by
    rw [hm] at hnd
    rintro rfl
    simp at hnd
  obtain ⟨qs, hq⟩ := exists_cons_cons_perm (mem_onlyLeft.mp (by rw [hm]; simp : x ∈ onlyLeft ps))
    (mem_onlyLeft.mp (by rw [hm]; simp : y ∈ onlyLeft ps)) (by simpa using hxy.symm)
  have hnone : outcome ((some x, none) :: (some y, none) :: qs) = none :=
    outcome_of_beginning [(some x, none), (some y, none)] rfl (.inl (by simp [left]))
      (by simp [left, toggle_of_ne hxy]) rfl
  rw [h _ hq, ← h _ hp, outcome_eq_some hlive] at hnone
  cases hnone

end Order

theorem outcome_flip_perm {ps : List (Row α β)}
    (h : ∀ qs, ps.Perm qs → outcome qs = outcome ps) (qs : List (Row β α))
    (hq : (flip ps).Perm qs) : outcome qs = outcome (flip ps) := by
  have hp : ps.Perm (flip qs) := by
    rw [← flip_flip ps]
    exact hq.map _
  have := h (flip qs) hp
  rw [outcome_flip] at this
  rw [outcome_flip, ← this, Option.map_map]
  simp

/-- **The order of the rows** does not matter exactly when they are settled. -/
theorem outcome_perm_iff {ps : List (Row α β)} (hb : blank ∉ ps) :
    (∀ qs, ps.Perm qs → outcome qs = outcome ps) ↔ Settled ps := by
  refine ⟨fun h => ?_, fun h qs hq => outcome_perm hb h hq⟩
  by_cases hlnil : left ps = []
  · exact .inr (.inl hlnil)
  by_cases hrnil : right ps = []
  · exact .inr (.inr (.inl hrnil))
  by_cases hl : Uniform (left ps)
  · by_cases hr : Uniform (right ps)
    · exact .inl ⟨hl, hr⟩
    · refine .inr (.inr (.inr (.inr (.inl ?_))))
      refine pinned_of_outcome (outcome_flip_perm h) ?_ ?_ ?_
      · rwa [left_flip]
      · rwa [right_flip]
      · rwa [right_flip]
  by_cases hr : Uniform (right ps)
  · exact .inr (.inr (.inr (.inl (pinned_of_outcome h hl hr hrnil))))
  refine .inr (.inr (.inr (.inr (.inr ⟨hl, ?_⟩))))
  by_contra ht
  obtain ⟨qs, hq, hlive⟩ := escapes ⟨hb, hl, hr, ht⟩
  -- an order that lives would leave both cells empty in the end
  have hpl : Paired (left ps) := (toggles_left_of_lives h hq hlive).resolve_left hl
  have hpr : Paired (right ps) := by
    have := toggles_left_of_lives (outcome_flip_perm h) (hq.map _) ((lives_flip blank qs).mpr hlive)
    rw [left_flip] at this
    exact this.resolve_left hr
  exact ht (.inl ⟨hpl, hpr⟩)

/-- Three rows, two of which agree: whether the third comes last decides. -/
example : ¬ Settled ([(some 1, some 1), (some 2, some 1), (some 1, some 1)] : List (Row ℕ ℕ)) := by
  rw [← outcome_perm_iff (by decide)]
  intro h
  have := h [(some 1, some 1), (some 1, some 1), (some 2, some 1)] (by decide)
  revert this
  decide

end MMRelay.Cells
