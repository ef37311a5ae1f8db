import Mathlib.Data.List.Basic
import Mathlib.Logic.Relation
import Mathlib.Tactic.Common

/-!
# Walking a graph of includes

A depth-first walk with a list of visited nodes and a bound on the depth of its calls, and a
reader that opens each node once and gathers what it lists, nested nodes in their place.

* `Reach`, `walk`, `Walked`: the walk and what it leaves behind;
* **`mem_walk_iff`**: the visited nodes are the reachable ones;
* **`walk_isSome`**: with more room than there are nodes the walk does not run out of it;
* `Listing`, `gather`: the reader;
* **`gather_eq_some`**, **`gather_of_walk`**: it succeeds if and only if the walk does and every
  reachable node opens, and it gathers what these nodes list.
-/

namespace MMRelay

variable {α β : Type}

/-- A node reaches another along the edges. -/
abbrev Reach (succ : α → List α) : α → α → Prop := Relation.ReflTransGen fun a b => b ∈ succ a

/-! ## What a walk leaves behind -/

/-- The visited nodes after a walk from some starts. -/
structure Walked (succ : α → List α) (visited starts after : List α) : Prop where
  mono : ∀ b ∈ visited, b ∈ after
  reached : ∀ a ∈ starts, a ∈ after
  sound : ∀ b ∈ after, b ∈ visited ∨ ∃ a ∈ starts, Reach succ a b
  closed : ∀ b ∈ after, b ∈ visited ∨ ∀ c ∈ succ b, c ∈ after

namespace Walked

variable {succ : α → List α} {visited mid after starts : List α} {a : α}

theorem nil (visited : List α) : Walked succ visited [] visited where
  mono _ hb := hb
  reached _ ha := absurd ha List.not_mem_nil
  sound _ hb := Or.inl hb
  closed _ hb := Or.inl hb

theorem of_mem (h : a ∈ visited) : Walked succ visited [a] visited where
  mono _ hb := hb
  reached _ hb := List.mem_singleton.mp hb ▸ h
  sound _ hb := Or.inl hb
  closed _ hb := Or.inl hb

theorem cons (h : Walked succ visited [a] mid) (h' : Walked succ mid starts after) :
    Walked succ visited (a :: starts) after where
  mono b hb := h'.mono b (h.mono b hb)
  reached b hb := by
    rcases List.mem_cons.mp hb with rfl | hb
    · exact h'.mono b (h.reached b (List.mem_singleton_self b))
    · exact h'.reached b hb
  sound b hb := by
    rcases h'.sound b hb with hmid | ⟨s, hs, hreach⟩
    · rcases h.sound b hmid with hv | ⟨s, hs, hreach⟩
      · exact Or.inl hv
      · exact Or.inr ⟨s, List.mem_singleton.mp hs ▸ List.mem_cons_self, hreach⟩
    · exact Or.inr ⟨s, List.mem_cons_of_mem _ hs, hreach⟩
  closed b hb := by
    rcases h'.closed b hb with hmid | hc
    · rcases h.closed b hmid with hv | hc
      · exact Or.inl hv
      · exact Or.inr fun c hcs => h'.mono c (hc c hcs)
    · exact Or.inr hc

theorem node (h : Walked succ (a :: visited) (succ a) after) : Walked succ visited [a] after where
  mono b hb := h.mono b (List.mem_cons_of_mem _ hb)
  reached b hb := h.mono b (List.mem_singleton.mp hb ▸ List.mem_cons_self)
  sound b hb := by
    rcases h.sound b hb with hv | ⟨s, hs, hreach⟩
    · rcases List.mem_cons.mp hv with rfl | hv
      · exact Or.inr ⟨b, List.mem_singleton_self b, Relation.ReflTransGen.refl⟩
      · exact Or.inl hv
    · exact Or.inr ⟨a, List.mem_singleton_self a, Relation.ReflTransGen.head hs hreach⟩
  closed b hb := by
    rcases h.closed b hb with hv | hc
    · rcases List.mem_cons.mp hv with rfl | hv
      · exact Or.inr h.reached
      · exact Or.inl hv
    · exact Or.inr hc

end Walked

theorem walked_foldlM {succ : α → List α} {f : List α → α → Option (List α)}
    (hf : ∀ visited a after, f visited a = some after → Walked succ visited [a] after)
    {starts visited after : List α} (h : starts.foldlM f visited = some after) :
    Walked succ visited starts after := by
  induction starts generalizing visited with
  | nil =>
    rw [List.foldlM_nil] at h
    rw [← Option.some.inj h]
    exact Walked.nil visited
  | cons a starts ih =>
    rw [List.foldlM_cons] at h
    obtain ⟨mid, hmid, hrest⟩ := Option.bind_eq_some_iff.mp h
    exact (hf visited a mid hmid).cons (ih hrest)

variable [DecidableEq α]

/-- Visit a node and what it reaches; `none` when the calls nest too deep. -/
def walk (succ : α → List α) : ℕ → List α → α → Option (List α)
  | 0, _, _ => none
  | room + 1, visited, a =>
    if a ∈ visited then some visited else (succ a).foldlM (walk succ room) (a :: visited)

theorem walked_walk {succ : α → List α} {room : ℕ} {visited after : List α} {a : α}
    (h : walk succ room visited a = some after) : Walked succ visited [a] after := by
  induction room generalizing visited a after with
  | zero => cases h
  | succ room ih =>
    unfold walk at h
    split_ifs at h with ha
    · rw [← Option.some.inj h]
      exact Walked.of_mem ha
    · exact (walked_foldlM (fun _ _ _ => ih) h).node

/-- **Reachability.** The walk visits the reachable nodes. -/
theorem mem_walk_iff {succ : α → List α} {room : ℕ} {after : List α} {a : α}
    (h : walk succ room [] a = some after) (b : α) : b ∈ after ↔ Reach succ a b := by
  have hw := walked_walk h
  constructor
  · intro hb
    obtain ⟨s, hs, hreach⟩ := (hw.sound b hb).resolve_left List.not_mem_nil
    rw [← List.mem_singleton.mp hs]
    exact hreach
  · intro hreach
    induction hreach with
    | refl => exact hw.reached a (List.mem_singleton_self a)
    | tail _ hedge ih => exact (hw.closed _ ih).resolve_left List.not_mem_nil _ hedge

/-! ## Room -/

/-- The nodes that are still to be visited. -/
def unvisited (nodes visited : List α) : ℕ := (nodes.filter (· ∉ visited)).length

theorem unvisited_mono {nodes visited after : List α} (h : ∀ b ∈ visited, b ∈ after) :
    unvisited nodes after ≤ unvisited nodes visited := by
  unfold unvisited
  apply List.Sublist.length_le
  apply List.monotone_filter_right
  intro b hb
  rw [decide_eq_true_eq] at hb ⊢
  exact fun hv => hb (h b hv)

theorem unvisited_cons_lt {nodes visited : List α} {a : α} (hmem : a ∈ nodes) (ha : a ∉ visited) :
    unvisited nodes (a :: visited) < unvisited nodes visited := by
  unfold unvisited
  have hsplit : nodes.filter (fun b => decide (b ∉ a :: visited)) =
      (nodes.filter fun b => decide (b ∉ visited)).filter fun b => decide (b ≠ a) := by
    rw [List.filter_filter]
    apply List.filter_congr
    intro b _
    simp [not_or, Bool.decide_and]
  rw [hsplit]
  apply List.length_filter_lt_length_iff_exists.mpr
  exact ⟨a, List.mem_filter.mpr ⟨hmem, decide_eq_true ha⟩, by simp⟩

/-- **Room.** With more room than unvisited nodes the walk succeeds. -/
theorem walk_isSome {succ : α → List α} {nodes : List α} (hnodes : ∀ a, succ a ≠ [] → a ∈ nodes)
    {room : ℕ} {visited : List α} (h : unvisited nodes visited < room) (a : α) :
    (walk succ room visited a).isSome = true := by
  induction room generalizing visited a with
  | zero => exact absurd h (Nat.not_lt_zero _)
  | succ room ih =>
    unfold walk
    split_ifs with ha
    · rfl
    · by_cases hleaf : succ a = []
      · rw [hleaf]
        rfl
      · have hroom : unvisited nodes (a :: visited) < room := by
          have := unvisited_cons_lt (hnodes a hleaf) ha
          omega
        generalize a :: visited = vs at hroom
        induction succ a generalizing vs with
        | nil => rfl
        | cons b bs ihb =>
          obtain ⟨mid, hmid⟩ := Option.isSome_iff_exists.mp (ih hroom b)
          rw [List.foldlM_cons, hmid]
          apply ihb
          have hle : unvisited nodes mid ≤ unvisited nodes vs := unvisited_mono (walked_walk hmid).mono
          omega

/-! ## Gathering -/

/-- What an open node lists: an item, or another node to be read in its place. -/
inductive Listing (α β : Type)
  | item (b : β)
  | nested (a : α)

namespace Listing

def item? : Listing α β → Option β
  | item b => some b
  | nested _ => none

def nested? : Listing α β → Option α
  | item _ => none
  | nested a => some a

end Listing

/-- One listing, with the items and the visited nodes so far. -/
def gatherListing (nested : List α → α → Option (List β × List α)) (s : List β × List α) :
    Listing α β → Option (List β × List α)
  | .item b => some (s.1 ++ [b], s.2)
  | .nested a => (nested s.2 a).map fun r => (s.1 ++ r.1, r.2)

/-- Read a node that opens and all it leads to, each node once. -/
def gather (open_ : α → Option (List (Listing α β))) :
    ℕ → List α → α → Option (List β × List α)
  | 0, _, _ => none
  | room + 1, visited, a =>
    if a ∈ visited then some ([], visited)
    else (open_ a).bind fun listings =>
      listings.foldlM (gatherListing (gather open_ room)) ([], a :: visited)

/-- The items that a node itself lists. -/
def ownItems (open_ : α → Option (List (Listing α β))) (a : α) : List β :=
  ((open_ a).getD []).filterMap Listing.item?

/-- The nodes that a node lists. -/
def nestedNodes (open_ : α → Option (List (Listing α β))) (a : α) : List α :=
  ((open_ a).getD []).filterMap Listing.nested?

variable {open_ : α → Option (List (Listing α β))}

/-- What a reader gathered on its way from some visited nodes to more of them. -/
structure Gathered (open_ : α → Option (List (Listing α β))) (visited after : List α)
    (own out : List β) : Prop where
  opens : ∀ b ∈ after, b ∈ visited ∨ (open_ b).isSome = true
  mem_out : ∀ o, o ∈ out ↔ o ∈ own ∨ ∃ b ∈ after, b ∉ visited ∧ o ∈ ownItems open_ b

omit [DecidableEq α] in
theorem Gathered.append {visited mid after : List α} {own own' out out' : List β}
    (h : Gathered open_ visited mid [] out) (h' : Gathered open_ mid after (own ++ out ++ own') out')
    (hmono : ∀ b ∈ visited, b ∈ mid) (hmono' : ∀ b ∈ mid, b ∈ after) :
    Gathered open_ visited after (own ++ own') out' where
  opens b hb := by
    rcases h'.opens b hb with hmid | hopen
    · exact h.opens b hmid
    · exact Or.inr hopen
  mem_out o := by
    rw [h'.mem_out]
    simp only [List.mem_append, h.mem_out, List.not_mem_nil, false_or]
    constructor
    · rintro (((ho | ⟨b, hb, hnew, ho⟩) | ho) | ⟨b, hb, hnew, ho⟩)
      · exact Or.inl (Or.inl ho)
      · exact Or.inr ⟨b, hmono' b hb, hnew, ho⟩
      · exact Or.inl (Or.inr ho)
      · exact Or.inr ⟨b, hb, fun hv => hnew (hmono b hv), ho⟩
    · rintro ((ho | ho) | ⟨b, hb, hnew, ho⟩)
      · exact Or.inl (Or.inl (Or.inl ho))
      · exact Or.inl (Or.inr ho)
      · by_cases hmid : b ∈ mid
        · exact Or.inl (Or.inl (Or.inr ⟨b, hmid, hnew, ho⟩))
        · exact Or.inr ⟨b, hb, hmid, ho⟩

omit [DecidableEq α] in
theorem Gathered.node {visited after : List α} {a : α} {out : List β}
    (h : Gathered open_ (a :: visited) after (ownItems open_ a) out)
    (hopen : (open_ a).isSome = true) (hmem : a ∈ after) (hnew : a ∉ visited) :
    Gathered open_ visited after [] out where
  opens b hb := by
    rcases h.opens b hb with hv | ho
    · rcases List.mem_cons.mp hv with rfl | hv
      · exact Or.inr hopen
      · exact Or.inl hv
    · exact Or.inr ho
  mem_out o := by
    rw [h.mem_out]
    simp only [List.mem_cons, not_or, List.not_mem_nil, false_or]
    constructor
    · rintro (ho | ⟨b, hb, ⟨-, hv⟩, ho⟩)
      · exact ⟨a, hmem, hnew, ho⟩
      · exact ⟨b, hb, hv, ho⟩
    · rintro ⟨b, hb, hv, ho⟩
      by_cases hba : b = a
      · exact Or.inl (hba ▸ ho)
      · exact Or.inr ⟨b, hb, ⟨hba, hv⟩, ho⟩

section Listings

variable {nested : List α → α → Option (List β × List α)} {step : List α → α → Option (List α)}

omit [DecidableEq α] in
theorem mono_foldlM (hmono : ∀ visited a after, step visited a = some after →
      ∀ b ∈ visited, b ∈ after) {starts visited after : List α}
    (h : starts.foldlM step visited = some after) : ∀ b ∈ visited, b ∈ after := by
  induction starts generalizing visited with
  | nil =>
    rw [List.foldlM_nil] at h
    rw [← Option.some.inj h]
    exact fun b hb => hb
  | cons a starts ih =>
    rw [List.foldlM_cons] at h
    obtain ⟨mid, hmid, hrest⟩ := Option.bind_eq_some_iff.mp h
    exact fun b hb => ih hrest b (hmono visited a mid hmid b hb)

omit [DecidableEq α] in
theorem gatherListings_spec
    (hstep : ∀ visited a out after, nested visited a = some (out, after) →
      step visited a = some after ∧ Gathered open_ visited after [] out)
    (hmono : ∀ visited a after, step visited a = some after → ∀ b ∈ visited, b ∈ after)
    {listings : List (Listing α β)} {acc out : List β} {visited after : List α}
    (h : listings.foldlM (gatherListing nested) (acc, visited) = some (out, after)) :
    (listings.filterMap Listing.nested?).foldlM step visited = some after ∧
      Gathered open_ visited after (acc ++ listings.filterMap Listing.item?) out := by
  induction listings generalizing acc visited with
  | nil =>
    rw [List.foldlM_nil] at h
    obtain ⟨rfl, rfl⟩ := Prod.mk.inj (Option.some.inj h)
    refine ⟨rfl, fun b hb => Or.inl hb, fun o => ?_⟩
    simp only [List.filterMap_nil, List.append_nil]
    exact ⟨Or.inl, fun ho => ho.resolve_right fun ⟨b, hb, hnew, _⟩ => hnew hb⟩
  | cons l listings ih =>
    rw [List.foldlM_cons] at h
    obtain ⟨⟨out', mid⟩, hl, hrest⟩ := Option.bind_eq_some_iff.mp h
    obtain ⟨hwalk, hgather⟩ := ih hrest
    cases l with
    | item o =>
      obtain ⟨rfl, rfl⟩ := Prod.mk.inj (Option.some.inj hl)
      rw [List.append_assoc] at hgather
      exact ⟨hwalk, hgather⟩
    | nested a =>
      obtain ⟨⟨items, vs⟩, hnested, heq⟩ := Option.map_eq_some_iff.mp hl
      obtain ⟨rfl, rfl⟩ := Prod.mk.inj heq
      obtain ⟨hs, hg⟩ := hstep visited a items vs hnested
      refine ⟨?_, hg.append hgather (hmono visited a vs hs) (mono_foldlM hmono hwalk)⟩
      change (a :: listings.filterMap Listing.nested?).foldlM step visited = some after
      rw [List.foldlM_cons, hs]
      exact hwalk

omit [DecidableEq α] in
theorem gatherListings_of_step
    (hstep : ∀ visited a after, step visited a = some after →
      (∀ b ∈ after, b ∈ visited ∨ (open_ b).isSome = true) →
        ∃ out, nested visited a = some (out, after))
    (hmono : ∀ visited a after, step visited a = some after → ∀ b ∈ visited, b ∈ after)
    {listings : List (Listing α β)} {acc : List β} {visited after : List α}
    (h : (listings.filterMap Listing.nested?).foldlM step visited = some after)
    (hopen : ∀ b ∈ after, b ∈ visited ∨ (open_ b).isSome = true) :
    ∃ out, listings.foldlM (gatherListing nested) (acc, visited) = some (out, after) := by
  induction listings generalizing acc visited with
  | nil =>
    obtain rfl := Option.some.inj h
    exact ⟨acc, rfl⟩
  | cons l listings ih =>
    cases l with
    | item o => exact ih h hopen
    | nested a =>
      change (a :: listings.filterMap Listing.nested?).foldlM step visited = some after at h
      rw [List.foldlM_cons] at h
      obtain ⟨mid, hmid, hrest⟩ := Option.bind_eq_some_iff.mp h
      have hafter := mono_foldlM hmono hrest
      obtain ⟨items, hitems⟩ := hstep visited a mid hmid fun b hb => hopen b (hafter b hb)
      have hopen' : ∀ b ∈ after, b ∈ mid ∨ (open_ b).isSome = true := by
        intro b hb
        rcases hopen b hb with hv | ho
        · exact Or.inl (hmono visited a mid hmid b hv)
        · exact Or.inr ho
      obtain ⟨out, hout⟩ := @ih (acc ++ items) mid hrest hopen'
      refine ⟨out, ?_⟩
      rw [List.foldlM_cons, gatherListing, hitems]
      exact hout

end Listings

/-- **Soundness.** A reader that succeeds walked the nested nodes, every node it visited opened, and
it gathered what they list. -/
theorem gather_eq_some {room : ℕ} {visited after : List α} {a : α} {out : List β}
    (h : gather open_ room visited a = some (out, after)) :
    walk (nestedNodes open_) room visited a = some after ∧ Gathered open_ visited after [] out := by
  induction room generalizing visited a out after with
  | zero => cases h
  | succ room ih =>
    unfold gather at h
    unfold walk
    split_ifs at h ⊢ with ha
    · obtain ⟨rfl, rfl⟩ := Prod.mk.inj (Option.some.inj h)
      refine ⟨rfl, fun b hb => Or.inl hb, fun o => ?_⟩
      exact ⟨Or.inl, fun ho => ho.resolve_right fun ⟨b, hb, hnew, _⟩ => hnew hb⟩
    · obtain ⟨listings, hopen, hfold⟩ := Option.bind_eq_some_iff.mp h
      have hmono : ∀ visited a after, walk (nestedNodes open_) room visited a = some after →
          ∀ b ∈ visited, b ∈ after := fun _ _ _ hw => (walked_walk hw).mono
      obtain ⟨hwalk, hgather⟩ := gatherListings_spec (fun _ _ _ _ => ih) hmono hfold
      have hnodes : listings.filterMap Listing.nested? = nestedNodes open_ a := by
        rw [nestedNodes, hopen, Option.getD_some]
      have hitems : listings.filterMap Listing.item? = ownItems open_ a := by
        rw [ownItems, hopen, Option.getD_some]
      rw [hnodes] at hwalk
      rw [List.nil_append, hitems] at hgather
      refine ⟨hwalk, hgather.node (by rw [hopen]; rfl) ?_ ha⟩
      exact (walked_foldlM (fun _ _ _ => walked_walk) hwalk).mono a List.mem_cons_self

/-- **Completeness.** A reader succeeds when the walk does and every node it visits opens. -/
theorem gather_of_walk {room : ℕ} {visited after : List α} {a : α}
    (h : walk (nestedNodes open_) room visited a = some after)
    (hopen : ∀ b ∈ after, b ∈ visited ∨ (open_ b).isSome = true) :
    ∃ out, gather open_ room visited a = some (out, after) := by
  induction room generalizing visited a after with
  | zero => cases h
  | succ room ih =>
    unfold walk at h
    unfold gather
    split_ifs at h ⊢ with ha
    · obtain rfl := Option.some.inj h
      exact ⟨[], rfl⟩
    · have hmem : a ∈ after :=
        (walked_foldlM (fun _ _ _ => walked_walk) h).mono a List.mem_cons_self
      obtain ⟨listings, hl⟩ := Option.isSome_iff_exists.mp ((hopen a hmem).resolve_left ha)
      have hnodes : nestedNodes open_ a = listings.filterMap Listing.nested? := by
        rw [nestedNodes, hl, Option.getD_some]
      rw [hnodes] at h
      rw [hl, Option.bind_some]
      have hmono : ∀ visited a after, walk (nestedNodes open_) room visited a = some after →
          ∀ b ∈ visited, b ∈ after := fun _ _ _ hw => (walked_walk hw).mono
      refine gatherListings_of_step (fun _ _ _ => ih) hmono h ?_
      intro b hb
      rcases hopen b hb with hv | ho
      · exact Or.inl (List.mem_cons_of_mem _ hv)
      · exact Or.inr ho

end MMRelay
