import MMRelay.Lib.TextFile
import Mathlib.Data.List.TakeWhile
import Mathlib.Tactic.Common

/-!
# Regular expressions that backtrack

The `re` module of the Python library on a text: the ways in which an expression matches at a
position, in the order in which the matcher tries them, of which the first one counts.

* `Cursor`, `Regex`, `Regex.run`: positions, expressions and the ways to match;
* `Regex.literal`, `Regex.alts`, `Regex.atEnd`: what is built from them;
* `Regex.match?`, `Regex.search?`, `Regex.sub`: the first way, the first position, replacing;
* **`run_literal`**, **`run_alts`**: a literal matches in at most one way, an alternation in the
  ways of its parts;
* `greedy_eq_cons`, `mem_greedy`: where a greedy run of characters stops first and can stop;
* **`head?_lineEnd`**, **`head?_wordsEnd`**: the rest of a line, and what separates it from what
  stands before, up to the end of the text.
-/

namespace MMRelay

/-- A position in a text: what is before it (last character first), what is after it and the groups
captured on the way. -/
structure Cursor where
  before : Text
  after : Text
  groups : List (String × Text)
  deriving DecidableEq

/-- An expression. Repetition is of one character class, as long or as short as possible. -/
inductive Regex
  | empty
  | one (p : Char → Bool)
  | many (p : Char → Bool)
  | few (p : Char → Bool)
  | seq (a b : Regex)
  | alt (a b : Regex)
  | opt (a : Regex)
  | group (name : String) (a : Regex)
  | ahead (a : Regex)
  | assert (test : Text → Text → Bool)

namespace Cursor

/-- The start of a text. -/
def start (text : Text) : Cursor := ⟨[], text, []⟩

/-- The characters that were consumed since `s`. -/
def since (s e : Cursor) : Text := s.after.take (s.after.length - e.after.length)

/-- The last capture of a group; `none` where it took no part. -/
def group? (s : Cursor) (name : String) : Option Text :=
  (s.groups.find? fun g => g.1 == name).map Prod.snd

end Cursor

/-- The places where a run of characters of `p` can stop, the longest run first. -/
def greedy (p : Char → Bool) : Text → Text → List (Text × Text)
  | before, [] => [(before, [])]
  | before, c :: cs =>
    if p c then greedy p (c :: before) cs ++ [(before, c :: cs)] else [(before, c :: cs)]

/-- The places where a run of characters of `p` can stop, the shortest run first. -/
def lazy (p : Char → Bool) : Text → Text → List (Text × Text)
  | before, [] => [(before, [])]
  | before, c :: cs => (before, c :: cs) :: if p c then lazy p (c :: before) cs else []

namespace Regex

/-- The positions after a match, in the order in which they are tried. -/
def run : Regex → Cursor → List Cursor
  | .empty, s => [s]
  | .one p, s =>
    match s.after with
    | [] => []
    | c :: cs => if p c then [⟨c :: s.before, cs, s.groups⟩] else []
  | .many p, s => (greedy p s.before s.after).map fun at' => ⟨at'.1, at'.2, s.groups⟩
  | .few p, s => (lazy p s.before s.after).map fun at' => ⟨at'.1, at'.2, s.groups⟩
  | .seq a b, s => (a.run s).flatMap b.run
  | .alt a b, s => a.run s ++ b.run s
  | .opt a, s => a.run s ++ [s]
  | .group name a, s =>
    (a.run s).map fun e => { e with groups := (name, s.since e) :: e.groups }
  | .ahead a, s => if (a.run s).isEmpty then [] else [s]
  | .assert test, s => if test s.before s.after then [s] else []

/-- One or more characters of a class. -/
def some' (p : Char → Bool) : Regex := .seq (.one p) (.many p)

/-- A text, its characters compared by `same`. -/
def literal (same : Char → Char → Bool) : Text → Regex
  | [] => .empty
  | c :: cs => .seq (.one (same c)) (literal same cs)

/-- `'|'.join(..)` of expressions; of none it is the empty expression. -/
def alts : List Regex → Regex
  | [] => .empty
  | [r] => r
  | r :: rs => .alt r (alts rs)

/-- `^`. -/
def atStart : Regex := .assert fun before _ => before.isEmpty

/-- `$`: the end of the text, or before a line feed that ends it. -/
def atEnd : Regex := .assert fun _ after => after.isEmpty || after == ['\n']

/-- `\b` for the word characters. -/
def boundary (word : Char → Bool) : Regex :=
  .assert fun before after => before.head?.any word != after.head?.any word

/-- `.`. -/
def dot (c : Char) : Bool := c != '\n'

/-- `re.match`. -/
def match? (r : Regex) (text : Text) : Option Cursor := (r.run (.start text)).head?

/-- `re.search` from a position: the first one with a match, and where the match ends. -/
def searchFrom (r : Regex) (before : Text) : Text → Option (Cursor × Cursor)
  | [] => (r.run ⟨before, [], []⟩).head?.map fun e => (⟨before, [], []⟩, e)
  | c :: cs =>
    match (r.run ⟨before, c :: cs, []⟩).head? with
    | some e => some (⟨before, c :: cs, []⟩, e)
    | none => searchFrom r (c :: before) cs

/-- `re.search`. -/
def search? (r : Regex) (text : Text) : Option Cursor :=
  (searchFrom r [] text).map Prod.snd

/-- The matches of an expression from left to right, for `fuel` positions; an expression that
consumes nothing where it matches is taken not to match there. -/
def scan (r : Regex) (replace : Cursor → Text) : ℕ → Text → Text → Text
  | 0, _, after => after
  | _ + 1, _, [] => []
  | fuel + 1, before, c :: cs =>
    match (r.run ⟨before, c :: cs, []⟩).head? with
    | some e =>
      if e.after.length ≤ cs.length then replace e ++ scan r replace fuel e.before e.after
      else c :: scan r replace fuel (c :: before) cs
    | none => c :: scan r replace fuel (c :: before) cs

/-- `re.sub` for an expression that matches no empty text. -/
def sub (r : Regex) (replace : Cursor → Text) (text : Text) : Text :=
  scan r replace text.length [] text

/-- The matches that `re.finditer` yields, for `fuel` positions. -/
def scanAll (r : Regex) : ℕ → Text → Text → List Cursor
  | 0, _, _ => []
  | _ + 1, _, [] => []
  | fuel + 1, before, c :: cs =>
    match (r.run ⟨before, c :: cs, []⟩).head? with
    | some e =>
      if e.after.length ≤ cs.length then e :: scanAll r fuel e.before e.after
      else scanAll r fuel (c :: before) cs
    | none => scanAll r fuel (c :: before) cs

/-- `re.finditer` for an expression that matches no empty text. -/
def finditer (r : Regex) (text : Text) : List Cursor := scanAll r text.length [] text

/-! ## Literals and alternations -/

theorem run_seq (a b : Regex) (s : Cursor) : (Regex.seq a b).run s = (a.run s).flatMap b.run := rfl

theorem run_opt (a : Regex) (s : Cursor) : (Regex.opt a).run s = a.run s ++ [s] := rfl

/-- What is left of a text after a prefix that compares equal. -/
def cut? (same : Char → Char → Bool) : Text → Text → Option Text
  | [], x => some x
  | _ :: _, [] => none
  | d :: ds, c :: cs => if same d c then cut? same ds cs else none

variable {same : Char → Char → Bool} {p : Char → Bool}

theorem cut?_eq_drop {t x r : Text} (h : cut? same t x = some r) :
    r = x.drop t.length ∧ t.length ≤ x.length := by
  induction t generalizing x with
  | nil =>
    rw [cut?, Option.some.injEq] at h
    exact ⟨h.symm, Nat.zero_le _⟩
  | cons d ds ih =>
    cases x with
    | nil => exact absurd h (by simp [cut?])
    | cons c cs =>
      by_cases hc : same d c = true
      · rw [cut?, if_pos hc] at h
        have := ih h
        exact ⟨this.1, Nat.succ_le_succ this.2⟩
      · rw [cut?, if_neg hc] at h
        exact absurd h (by simp)

theorem cut?_eq_some_iff {t x r : Text} :
    cut? same t x = some r ↔
      ∃ w, x = w ++ r ∧ List.Forall₂ (fun d c => same d c = true) t w := by
  induction t generalizing x with
  | nil =>
    constructor
    · intro h
      exact ⟨[], Option.some.inj h, .nil⟩
    · rintro ⟨w, rfl, hw⟩
      rw [List.forall₂_nil_left_iff.1 hw, List.nil_append, cut?]
  | cons d ds ih =>
    cases x with
    | nil =>
      refine iff_of_false (by simp [cut?]) ?_
      rintro ⟨w, hnil, hw⟩
      rw [(List.append_eq_nil_iff.1 hnil.symm).1, List.forall₂_nil_right_iff] at hw
      exact absurd hw (List.cons_ne_nil _ _)
    | cons c cs =>
      rw [cut?]
      by_cases hc : same d c = true
      · rw [if_pos hc, ih]
        constructor
        · rintro ⟨w, rfl, hw⟩
          exact ⟨c :: w, rfl, .cons hc hw⟩
        · rintro ⟨w, heq, hw⟩
          obtain ⟨c', w', -, hrest, rfl⟩ := List.forall₂_cons_left_iff.1 hw
          rw [List.cons_append, List.cons.injEq] at heq
          exact ⟨w', heq.2, hrest⟩
      · rw [if_neg hc]
        refine iff_of_false (by simp) ?_
        rintro ⟨w, heq, hw⟩
        obtain ⟨c', w', hc', -, rfl⟩ := List.forall₂_cons_left_iff.1 hw
        rw [List.cons_append, List.cons.injEq] at heq
        exact hc (heq.1 ▸ hc')

theorem run_literal (t : Text) (s : Cursor) :
    (literal same t).run s = ((cut? same t s.after).map fun r =>
      (⟨(s.after.take t.length).reverse ++ s.before, r, s.groups⟩ : Cursor)).toList := by
  induction t generalizing s with
  | nil => simp [literal, run, cut?]
  | cons d ds ih =>
    obtain ⟨before, after, groups⟩ := s
    cases after with
    | nil => simp [literal, run, cut?]
    | cons c cs =>
      by_cases hc : same d c = true
      · simp [literal, run, cut?, hc, ih]
      · simp [literal, run, cut?, hc]

theorem run_alts {rs : List Regex} (h : rs ≠ []) (s : Cursor) :
    (alts rs).run s = rs.flatMap fun r => r.run s := by
  induction rs with
  | nil => exact absurd rfl h
  | cons r rs ih =>
    cases rs with
    | nil => simp [alts]
    | cons r' rs' =>
      have := ih (List.cons_ne_nil _ _)
      rw [List.flatMap_cons, ← this]
      rfl

/-- The literals that an alternation tries; one of none is the empty text. -/
def choices (ts : List Text) : List Text := if ts.isEmpty then [[]] else ts

/-- A captured alternation of literals and what follows it: the first literal that what follows
allows. -/
theorem head?_group_alts (name : String) (ts : List Text) (r : Regex) (s : Cursor) :
    ((Regex.seq (.group name (alts (ts.map (literal same)))) r).run s).head? =
      (choices ts).findSome? fun t => (cut? same t s.after).bind fun rest =>
        (r.run ⟨(s.after.take t.length).reverse ++ s.before, rest,
          (name, s.after.take t.length) :: s.groups⟩).head? := by
  have halts : (alts (ts.map (literal same))).run s =
      (choices ts).flatMap fun t => (literal same t).run s := by
    cases ts with
    | nil => rfl
    | cons t ts =>
      rw [run_alts (by simp) s, List.flatMap_map]
      rfl
  rw [run_seq, run, halts, List.map_flatMap, List.flatMap_assoc, List.head?_flatMap]
  congr 1
  funext t
  rw [run_literal]
  cases h : cut? same t s.after with
  | none => rfl
  | some rest =>
    obtain ⟨rfl, hlen⟩ := cut?_eq_drop h
    have htake : s.after.length - (s.after.length - t.length) = t.length := by omega
    simp [Cursor.since, htake]

theorem findSome?_eq_map_find? {α β : Type} {f : α → Option β} {q : α → Bool} {g : α → β}
    {l : List α} (h : ∀ a ∈ l, f a = if q a then some (g a) else none) :
    l.findSome? f = (l.find? q).map g := by
  induction l with
  | nil => rfl
  | cons a l ih =>
    have ha := h a List.mem_cons_self
    have hl := ih fun b hb => h b (List.mem_cons_of_mem _ hb)
    by_cases hq : q a = true
    · rw [List.findSome?_cons, ha, if_pos hq, List.find?_cons_of_pos hq]
      rfl
    · rw [List.findSome?_cons, ha, if_neg hq, List.find?_cons_of_neg hq, hl]

/-! ## Runs of characters -/

/-- A greedy run stops first where the class does. -/
theorem greedy_eq_cons (p : Char → Bool) (before after : Text) : ∃ others,
    greedy p before after =
      ((after.takeWhile p).reverse ++ before, after.dropWhile p) :: others := by
  induction after generalizing before with
  | nil => exact ⟨[], rfl⟩
  | cons c cs ih =>
    by_cases hc : p c = true
    · obtain ⟨others, h⟩ := ih (c :: before)
      refine ⟨others ++ [(before, c :: cs)], ?_⟩
      simp [greedy, hc, h]
    · exact ⟨[], by simp [greedy, hc]⟩

theorem head?_of_mem_tail_greedy {before after : Text} {e : Text × Text}
    (h : e ∈ (greedy p before after).tail) : e.2.head?.any p = true := by
  induction after generalizing before with
  | nil => exact absurd h (by simp [greedy])
  | cons c cs ih =>
    by_cases hc : p c = true
    · obtain ⟨others, hg⟩ := greedy_eq_cons p (c :: before) cs
      rw [greedy, if_pos hc, hg, List.cons_append, List.tail_cons, List.mem_append,
        List.mem_singleton] at h
      obtain h | rfl := h
      · exact ih (by rw [hg]; exact h)
      · simpa using hc
    · rw [greedy, if_neg hc, List.tail_cons] at h
      exact absurd h (List.not_mem_nil)

theorem mem_greedy {before after : Text} {e : Text × Text} (h : e ∈ greedy p before after) :
    ∃ passed, after = passed ++ e.2 ∧ ∀ c ∈ passed, p c = true := by
  induction after generalizing before with
  | nil =>
    rw [greedy, List.mem_singleton] at h
    exact ⟨[], by simp [h]⟩
  | cons c cs ih =>
    by_cases hc : p c = true
    · rw [greedy, if_pos hc, List.mem_append, List.mem_singleton] at h
      obtain h | rfl := h
      · obtain ⟨passed, heq, hp⟩ := ih h
        refine ⟨c :: passed, by rw [heq, List.cons_append], ?_⟩
        intro d hd
        obtain rfl | hd := List.mem_cons.1 hd
        · exact hc
        · exact hp d hd
      · exact ⟨[], by simp⟩
    · rw [greedy, if_neg hc, List.mem_singleton] at h
      exact ⟨[], by simp [h]⟩

/-- No line feed stands before the last character. -/
def oneLine (t : Text) : Bool := !t.dropLast.contains '\n'

theorem oneLine_cons {c : Char} {cs : Text} :
    oneLine (c :: cs) = true ↔ cs = [] ∨ (c ≠ '\n' ∧ oneLine cs = true) := by
  cases cs with
  | nil => exact iff_of_true rfl (.inl rfl)
  | cons d ds =>
    rw [or_iff_right (List.cons_ne_nil d ds), oneLine, oneLine, List.dropLast_cons_cons,
      List.contains_cons, Bool.not_or, Bool.and_eq_true, Bool.not_eq_true', beq_eq_false_iff_ne]
    exact and_congr_left fun _ => ne_comm

theorem oneLine_iff {t : Text} :
    oneLine t = true ↔ t.dropWhile dot = [] ∨ t.dropWhile dot = ['\n'] := by
  induction t with
  | nil => simp [oneLine]
  | cons c cs ih =>
    rw [oneLine_cons]
    by_cases hc : c = '\n'
    · have hd : (c :: cs).dropWhile dot = c :: cs := List.dropWhile_cons_of_neg (by simp [dot, hc])
      rw [hd, hc]
      simp
    · have hd : (c :: cs).dropWhile dot = cs.dropWhile dot :=
        List.dropWhile_cons_of_pos (by simp [dot, hc])
      rw [hd, ← ih]
      constructor
      · rintro (rfl | h)
        · rfl
        · exact h.2
      · intro h
        exact .inr ⟨hc, h⟩

theorem oneLine_of_prefix {t u : Text} (h : t <+: u) (hu : oneLine u = true) :
    oneLine t = true := by
  obtain ⟨s, rfl⟩ := h
  induction t with
  | nil => rfl
  | cons c cs ih =>
    rw [List.cons_append, oneLine_cons] at hu
    rw [oneLine_cons]
    obtain hu | ⟨hc, hu⟩ := hu
    · exact .inl (List.append_eq_nil_iff.1 hu).1
    · exact .inr ⟨hc, ih hu⟩

theorem oneLine_of_suffix {t u : Text} (h : t <:+ u) (hu : oneLine u = true) :
    oneLine t = true := by
  induction u with
  | nil => rwa [List.suffix_nil.1 h]
  | cons c cs ih =>
    obtain rfl | h := List.suffix_cons_iff.1 h
    · exact hu
    · obtain rfl | hu := oneLine_cons.1 hu
      · rw [List.suffix_nil.1 h]
        rfl
      · exact ih h hu.2

theorem run_atEnd (s : Cursor) :
    atEnd.run s = if s.after = [] ∨ s.after = ['\n'] then [s] else [] := by
  simp [atEnd, run]

theorem run_seq_assoc (a b c : Regex) (s : Cursor) :
    (Regex.seq (.seq a b) c).run s = (Regex.seq a (.seq b c)).run s := by
  rw [run_seq, run_seq, run_seq, List.flatMap_assoc]
  rfl

theorem head?_group_many (name : String) (r : Regex) (s : Cursor) :
    ((Regex.seq (.group name (.many p)) r).run s).head? =
      (greedy p s.before s.after).findSome? fun e => (r.run ⟨e.1, e.2,
        (name, s.after.take (s.after.length - e.2.length)) :: s.groups⟩).head? := by
  rw [run, List.head?_flatMap, run, run, List.map_map, List.findSome?_map]
  rfl

theorem take_takeWhile (p : Char → Bool) (t : Text) :
    t.take (t.length - (t.dropWhile p).length) = t.takeWhile p := by
  have h := congrArg List.length (List.takeWhile_append_dropWhile (p := p) (l := t))
  rw [List.length_append] at h
  have hlen : t.length - (t.dropWhile p).length = (t.takeWhile p).length := by omega
  rw [hlen]
  exact List.prefix_iff_eq_take.1 (List.takeWhile_prefix p) |>.symm

/-- Characters of a class before a character that is not of it. -/
theorem head?_skip {q : Char → Bool} (hq : ∀ c, p c = true → q c = false) (r : Regex)
    (s : Cursor) :
    ((Regex.seq (.many p) (.seq (.one q) r)).run s).head? =
      ((Regex.seq (.one q) r).run ⟨(s.after.takeWhile p).reverse ++ s.before,
        s.after.dropWhile p, s.groups⟩).head? := by
  obtain ⟨others, hg⟩ := greedy_eq_cons p s.before s.after
  have hothers : ∀ e ∈ others, (Regex.seq (.one q) r).run ⟨e.1, e.2, s.groups⟩ = [] := by
    intro e he
    have hmem : e ∈ (greedy p s.before s.after).tail := by rw [hg]; exact he
    have hhead := head?_of_mem_tail_greedy hmem
    obtain ⟨before, after⟩ := e
    cases after with
    | nil => exact absurd hhead (by simp)
    | cons c cs =>
      have hc := hq c (by simpa using hhead)
      simp [run, hc]
  have hnone : (others.flatMap fun e => (Regex.seq (.one q) r).run ⟨e.1, e.2, s.groups⟩) = [] :=
    List.flatMap_eq_nil_iff.2 hothers
  rw [run_seq, run, hg, List.flatMap_map, List.flatMap_cons, hnone, List.append_nil]

/-- The rest of a line, captured, and the end of the text. -/
def lineEnd (name : String) : Regex := .seq (.group name (.many dot)) atEnd

/-- **The rest of a line matches up to the end of the text** if no line feed comes before the last
character. -/
theorem head?_lineEnd (name : String) (s : Cursor) :
    (((lineEnd name).run s).head?.map Cursor.groups) =
      if oneLine s.after then some ((name, s.after.takeWhile dot) :: s.groups) else none := by
  rw [lineEnd, head?_group_many]
  by_cases h : oneLine s.after = true
  · obtain ⟨others, hg⟩ := greedy_eq_cons dot s.before s.after
    rw [if_pos h, hg, List.findSome?_cons, run_atEnd, if_pos (oneLine_iff.1 h), take_takeWhile]
    rfl
  · rw [if_neg h, Option.map_eq_none_iff, List.findSome?_eq_none_iff]
    intro e he
    obtain ⟨passed, heq, hp⟩ := mem_greedy he
    rw [run_atEnd, if_neg]
    · rfl
    · intro hstop
      apply h
      rw [oneLine_iff, heq, List.dropWhile_append_of_pos hp]
      obtain hstop | hstop := hstop
      · exact .inl (congrArg (List.dropWhile dot) hstop)
      · exact .inr (congrArg (List.dropWhile dot) hstop)

theorem head?_many_lineEnd (name : String) (s : Cursor) :
    (((Regex.seq (.many p) (lineEnd name)).run s).head?.map Cursor.groups) =
      if oneLine (s.after.dropWhile p) then
        some ((name, (s.after.dropWhile p).takeWhile dot) :: s.groups)
      else none := by
  have hstep (e : Text × Text) := head?_lineEnd name ⟨e.1, e.2, s.groups⟩
  rw [run, run, List.head?_flatMap, List.findSome?_map]
  by_cases h : oneLine (s.after.dropWhile p) = true
  · obtain ⟨others, hg⟩ := greedy_eq_cons p s.before s.after
    have hfirst := hstep ((s.after.takeWhile p).reverse ++ s.before, s.after.dropWhile p)
    rw [if_pos h] at hfirst
    obtain ⟨e, he, hgroups⟩ := Option.map_eq_some_iff.1 hfirst
    rw [if_pos h, hg, List.findSome?_cons, Function.comp_apply, he]
    exact congrArg some hgroups
  · rw [if_neg h, Option.map_eq_none_iff, List.findSome?_eq_none_iff]
    intro e he
    obtain ⟨passed, heq, hp⟩ := mem_greedy he
    have hno : ¬ oneLine e.2 = true := by
      intro hone
      apply h
      rw [heq, List.dropWhile_append_of_pos hp]
      exact oneLine_of_suffix (List.dropWhile_suffix p) hone
    have hlast := hstep e
    rw [if_neg hno] at hlast
    exact Option.map_eq_none_iff.1 hlast

/-- `(?:\s+(?P<name>.*))?$`: nothing more, or separated by characters of a class the rest of a line,
captured. -/
def wordsEnd (p : Char → Bool) (name : String) : Regex :=
  .seq (.opt (.seq (some' p) (.group name (.many dot)))) atEnd

/-- **What may follow a word**: nothing, or a separator and one line, which is captured without the
separator. -/
theorem head?_wordsEnd (hp : p '\n' = true) (name : String) (s : Cursor) :
    (((wordsEnd p name).run s).head?.map Cursor.groups) =
      if s.after = [] then some s.groups
      else if s.after.head?.any p && oneLine (s.after.dropWhile p) then
        some ((name, (s.after.dropWhile p).takeWhile dot) :: s.groups)
      else none := by
  have hsplit : (wordsEnd p name).run s =
      (Regex.seq (.one p) (.seq (.many p) (lineEnd name))).run s ++ atEnd.run s := by
    rw [← run_seq_assoc, lineEnd, ← run_seq_assoc]
    rw [wordsEnd, run_seq, run_opt, List.flatMap_append, List.flatMap_singleton]
    rfl
  obtain ⟨before, after, groups⟩ := s
  rw [hsplit, List.head?_append, run_atEnd]
  cases after with
  | nil => simp [run]
  | cons c cs =>
    by_cases hc : p c = true
    · have hone : (Regex.seq (.one p) (.seq (.many p) (lineEnd name))).run
          ⟨before, c :: cs, groups⟩ =
          (Regex.seq (.many p) (lineEnd name)).run ⟨c :: before, cs, groups⟩ := by
        rw [run, run]
        simp only [hc, if_true, List.flatMap_singleton]
      have hline := head?_many_lineEnd (p := p) name ⟨c :: before, cs, groups⟩
      rw [hone]
      by_cases h : oneLine (cs.dropWhile p) = true
      · rw [if_pos h] at hline
        obtain ⟨e, he, hgroups⟩ := Option.map_eq_some_iff.1 hline
        simp [he, hgroups, hc, h]
      · rw [if_neg h, Option.map_eq_none_iff] at hline
        have hcs : cs ≠ [] := by
          rintro rfl
          exact h rfl
        simp [hline, hc, h, hcs]
    · have hc' : c ≠ '\n' := by
        rintro rfl
        exact hc hp
      simp [run, hc, hc']

end Regex

end MMRelay
