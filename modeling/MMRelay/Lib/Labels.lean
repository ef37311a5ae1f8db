import Mathlib.Data.List.Infix
import Mathlib.Tactic.Common

/-!
# Names made of labels

A name such as `docs.example.org` is a list of labels between separators, the outermost label last.
A name is at or below another one if it ends with all of its labels.

* `AtOrBelow`;
* **`atOrBelow_iff`**: the test on texts, the same name or a suffix after a separator.
-/

namespace MMRelay

variable {α : Type} [DecidableEq α] {sep : α} {name zone : List α}

/-- The name ends with the labels of the zone. -/
def AtOrBelow (sep : α) (name zone : List α) : Prop := zone.splitOn sep <:+ name.splitOn sep

omit [DecidableEq α] in
theorem intercalate_append_cons (sep : α) (ls : List (List α)) (l : List α) (ms : List (List α))
    (hne : ls ≠ []) :
    [sep].intercalate (ls ++ l :: ms) =
      [sep].intercalate ls ++ sep :: [sep].intercalate (l :: ms) := by
  induction ls with
  | nil => exact absurd rfl hne
  | cons k ls ih =>
    cases ls with
    | nil => simp [List.intercalate_cons_cons]
    | cons k' ls =>
      rw [List.cons_append, List.cons_append, List.intercalate_cons_cons, List.intercalate_cons_cons,
        ← List.cons_append, ih (List.cons_ne_nil _ _)]
      simp

/-- **A zone is compared as a text**: the same name, or the end of it after a separator. -/
theorem atOrBelow_iff : AtOrBelow sep name zone ↔ name = zone ∨ sep :: zone <:+ name := by
  constructor
  · rintro ⟨ls, hls⟩
    have hname : [sep].intercalate (ls ++ zone.splitOn sep) = name := by
      rw [hls, List.intercalate_splitOn]
    by_cases hnil : ls = []
    · left
      rw [← hname, hnil, List.nil_append, List.intercalate_splitOn]
    · right
      obtain ⟨l, ms, hz⟩ := List.exists_cons_of_ne_nil (List.splitOn_ne_nil sep zone)
      rw [hz, intercalate_append_cons sep ls l ms hnil, ← hz, List.intercalate_splitOn] at hname
      exact ⟨_, hname⟩
  · rintro (rfl | ⟨p, rfl⟩)
    · exact List.suffix_rfl
    · rw [AtOrBelow, List.splitOn_append_cons_self]
      exact List.suffix_append _ _

end MMRelay
