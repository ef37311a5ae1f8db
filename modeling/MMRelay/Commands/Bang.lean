import MMRelay.Lib.Dict
import MMRelay.Lib.PyValue
import MMRelay.Lib.Regex
import Mathlib.Data.List.Sort

/-!
# Commands that start with an exclamation mark

`_build_command_lookup` and `_match_bang_command` (`matrix/command_bridge.py`). What Unicode says
about characters is a parameter.

* `Unicode`: upper and lower case, and the characters of words;
* `buildCommandLookup`, `registered`, `matchBangCommand`;
* `WellFormed`, `wellFormed_buildCommandLookup`: the keys are the folded names, each of them once;
* `Fits`, **`matchBangCommand_eq`**: the expression accepts the longest command that fits;
* `Carries`, **`obeysGrammar_iff`**: when the parser follows the grammar of commands.
-/

namespace MMRelay.Commands

open Regex

/-- The tables of Unicode that the parsers read. -/
structure Unicode where
  same : Char → Char → Bool
  casefoldChar : Char → Text
  lower : Text → Text
  word : Char → Bool
  same_self : ∀ c, same c c = true
  same_space : ∀ c d, same c d = true → isSpace c = isSpace d
  word_space : ∀ c, isSpace c = true → word c = false

/-- `str.casefold`. -/
def Unicode.casefold (u : Unicode) (t : Text) : Text := t.flatMap u.casefoldChar

variable (u : Unicode)

/-! ## The commands -/

/-- The name that a command is registered under. -/
def normalizeCommand (command : Text) : Option Text :=
  let normalized := stripChars command
  if normalized = [] then none
  else
    let normalized := if normalized.head? = some '!' then normalized.tail else normalized
    if normalized = [] then none else some normalized

/-- The name of what is given as a command; what is no string has none. -/
def commandName : Py → Option Text
  | .str s => normalizeCommand s.toList
  | _ => none

/-- One command of the loop of `_build_command_lookup`. -/
def addCommand (lookup : List (Text × Text)) (command : Py) : List (Text × Text) :=
  match commandName command with
  | none => lookup
  | some normalized =>
    let key := u.casefold normalized
    if (dictGet? lookup key).isSome then lookup else dictSet lookup key normalized

/-- `_build_command_lookup`. -/
def buildCommandLookup (commands : List Py) : List (Text × Text) :=
  commands.foldl (addCommand u) []

/-- The canonical spellings, in the order in which they came. -/
def registered (commands : List Py) : List Text := (buildCommandLookup u commands).map Prod.snd

structure ParsedMatrixCommand where
  command : Text
  args : Text
  deriving DecidableEq

/-- `(?=$|\s)`. -/
def separated : Regex := .ahead (.alt atEnd (.one isSpace))

/-- `^!(?P<command>..)(?=$|\s)(?:\s+(?P<args>.*))?$` for the alternatives. -/
def commandPattern (alternatives : List Text) : Regex :=
  .seq atStart (.seq (.one (· == '!')) (.seq
    (.group "command" (alts (alternatives.map (literal u.same))))
    (.seq separated (wordsEnd isSpace "args"))))

/-- `sorted(.., key=len, reverse=True)`. -/
def longestFirst (names : List Text) : List Text :=
  names.insertionSort fun a b => b.length ≤ a.length

/-- What is returned for the position after a match. -/
def parsedFrom (lookup : List (Text × Text)) (found : Cursor) :
    ParsedMatrixCommand :=
  let matched := (found.group? "command").getD []
  { command := (dictGet? lookup (u.casefold matched)).getD matched
    args := stripChars ((found.group? "args").getD []) }

/-- `_match_bang_command`. -/
def matchBangCommand (message : Text) (lookup : List (Text × Text)) :
    Option ParsedMatrixCommand :=
  if message = [] then none
  else
    ((commandPattern u (longestFirst (lookup.map Prod.snd))).match? message).map
      (parsedFrom u lookup)

/-! ## What is registered -/

/-- A name that the loop registers does not end in a blank. -/
def IsName (t : Text) : Prop := ∃ c, t.getLast? = some c ∧ isSpace c = false

theorem IsName.ne_nil {t : Text} (h : IsName t) : t ≠ [] := by
  obtain ⟨c, hc, -⟩ := h
  rintro rfl
  exact absurd hc (by simp)

theorem isName_stripChars {t : Text} (h : stripChars t ≠ []) : IsName (stripChars t) := by
  have hlast := List.rdropWhile_last_not isSpace (t.dropWhile isSpace) h
  refine ⟨(stripChars t).getLast h, List.getLast?_eq_some_getLast h, ?_⟩
  exact Bool.eq_false_iff.2 hlast

theorem isName_tail {t : Text} (h : IsName t) (ht : t.tail ≠ []) : IsName t.tail := by
  obtain ⟨c, hc, hspace⟩ := h
  refine ⟨c, ?_, hspace⟩
  rw [List.getLast?_tail, if_neg, hc]
  intro hlen
  exact ht (List.eq_nil_of_length_eq_zero (by simp [hlen]))

theorem isName_normalizeCommand {command name : Text}
    (h : normalizeCommand command = some name) : IsName name := by
  unfold normalizeCommand at h
  by_cases hblank : stripChars command = []
  · rw [if_pos hblank] at h
    exact absurd h (by simp)
  · rw [if_neg hblank] at h
    have hstripped := isName_stripChars hblank
    by_cases hbang : (stripChars command).head? = some '!'
    · rw [if_pos hbang] at h
      by_cases hrest : (stripChars command).tail = []
      · rw [if_pos hrest] at h
        exact absurd h (by simp)
      · rw [if_neg hrest, Option.some.injEq] at h
        exact h ▸ isName_tail hstripped hrest
    · rw [if_neg hbang, if_neg hblank, Option.some.injEq] at h
      exact h ▸ hstripped

/-- A dictionary of commands: the names under their folded spelling, each key once. -/
structure WellFormed (lookup : List (Text × Text)) : Prop where
  keyed : ∀ entry ∈ lookup, entry.1 = u.casefold entry.2
  distinct : (lookup.map Prod.fst).Nodup
  named : ∀ entry ∈ lookup, IsName entry.2

variable {u}

theorem isName_commandName {command : Py} {name : Text} (h : commandName command = some name) :
    IsName name := by
  cases command with
  | str s => exact isName_normalizeCommand h
  | _ => exact absurd h (by simp [commandName])

/-- A name is appended, unless a command came before that is folded alike. -/
theorem addCommand_eq {lookup : List (Text × Text)} {command : Py} {name : Text}
    (hname : commandName command = some name) :
    addCommand u lookup command =
      if u.casefold name ∈ lookup.map Prod.fst then lookup
      else lookup ++ [(u.casefold name, name)] := by
  rw [addCommand, hname]
  by_cases hmem : u.casefold name ∈ lookup.map Prod.fst
  · have hsome : (dictGet? lookup (u.casefold name)).isSome = true := by
      by_contra hnone
      exact notMem_of_dictGet?_eq_none (Option.not_isSome_iff_eq_none.1 hnone) hmem
    rw [if_pos hmem]
    exact if_pos hsome
  · have hnone : ¬ (dictGet? lookup (u.casefold name)).isSome = true := by
      intro hsome
      obtain ⟨value, hvalue⟩ := Option.isSome_iff_exists.1 hsome
      exact hmem (mem_of_dictGet?_eq_some hvalue)
    rw [if_neg hmem, ← dictSet_of_notMem hmem name]
    exact if_neg hnone

theorem WellFormed.addCommand {lookup : List (Text × Text)} (h : WellFormed u lookup)
    (command : Py) : WellFormed u (addCommand u lookup command) := by
  cases hname : commandName command with
  | none =>
    rw [Commands.addCommand, hname]
    exact h
  | some name =>
    rw [addCommand_eq hname]
    split_ifs with hmem
    · exact h
    · refine ⟨?_, ?_, ?_⟩
      · intro entry hentry
        rw [List.mem_append, List.mem_singleton] at hentry
        obtain hentry | rfl := hentry
        · exact h.keyed entry hentry
        · rfl
      · rw [List.map_append]
        exact h.distinct.append (List.nodup_singleton _) (by simpa using hmem)
      · intro entry hentry
        rw [List.mem_append, List.mem_singleton] at hentry
        obtain hentry | rfl := hentry
        · exact h.named entry hentry
        · exact isName_commandName hname

theorem wellFormed_buildCommandLookup (commands : List Py) :
    WellFormed u (buildCommandLookup u commands) := by
  have hstart : WellFormed u [] := by
    constructor <;> simp
  exact List.foldlRecOn commands (addCommand u) hstart fun _ h command _ => h.addCommand command

theorem isName_of_registered {commands : List Py} {name : Text}
    (h : name ∈ registered u commands) : IsName name := by
  obtain ⟨entry, hentry, rfl⟩ := List.mem_map.1 h
  exact (wellFormed_buildCommandLookup commands).named entry hentry

/-- The dictionary has a name under its own key. -/
theorem WellFormed.get_casefold {lookup : List (Text × Text)} (h : WellFormed u lookup)
    {name : Text} (hname : name ∈ lookup.map Prod.snd) :
    dictGet? lookup (u.casefold name) = some name := by
  obtain ⟨entry, hmem, rfl⟩ := List.mem_map.1 hname
  rw [dictGet?_eq_some_iff_mem h.distinct, ← h.keyed entry hmem]
  exact hmem

/-- What it has under a key is a registered name that folds to it. -/
theorem WellFormed.of_get {lookup : List (Text × Text)} (h : WellFormed u lookup)
    {key name : Text} (hname : dictGet? lookup key = some name) :
    name ∈ lookup.map Prod.snd ∧ u.casefold name = key := by
  have hmem := (dictGet?_eq_some_iff_mem h.distinct).1 hname
  exact ⟨List.mem_map_of_mem hmem, (h.keyed _ hmem).symm⟩

/-! ## What the expression accepts -/

/-- What may follow a command: nothing, or a blank and one line after the blanks. -/
def ends (rest : Text) : Bool :=
  rest.isEmpty || (rest.head?.any isSpace && oneLine (rest.dropWhile isSpace))

/-- A command fits a text that continues an exclamation mark. -/
def Fits (u : Unicode) (name text : Text) : Bool := (cut? u.same name text).any ends

theorem run_separated (s : Cursor) :
    separated.run s = if s.after = [] ∨ s.after.head?.any isSpace then [s] else [] := by
  obtain ⟨before, after, groups⟩ := s
  cases after with
  | nil => rfl
  | cons c cs =>
    by_cases hc : isSpace c = true
    · simp [separated, run, run_atEnd, hc]
    · have hline : c ≠ '\n' := by
        rintro rfl
        exact hc rfl
      simp [separated, run, run_atEnd, hc, hline]

theorem stripChars_append (t : Text) {blanks : Text} (h : ∀ c ∈ blanks, isSpace c = true) :
    stripChars (t ++ blanks) = stripChars t := by
  have hrstrip (t : Text) : stripChars t = (t.dropWhile isSpace).rdropWhile isSpace := rfl
  have hblanks : ∀ c ∈ blanks.reverse, isSpace c = true := fun c hc => h c (List.mem_reverse.1 hc)
  rw [hrstrip, hrstrip, List.dropWhile_append]
  by_cases hblank : (t.dropWhile isSpace).isEmpty = true
  · have hall := List.dropWhile_eq_nil_iff.2 h
    rw [if_pos hblank, List.isEmpty_iff.1 hblank, hall]
  · rw [if_neg hblank, List.rdropWhile, List.reverse_append, List.dropWhile_append_of_pos hblanks,
      List.rdropWhile]

theorem stripChars_takeWhile_dot {t : Text} (h : oneLine t = true) :
    stripChars (t.takeWhile dot) = stripChars t := by
  have hsplit := List.takeWhile_append_dropWhile (p := dot) (l := t)
  obtain hrest | hrest := oneLine_iff.1 h
  · rw [hrest, List.append_nil] at hsplit
    rw [hsplit]
  · have hblank : ∀ c ∈ ['\n'], isSpace c = true := by
      intro c hc
      rw [List.mem_singleton.1 hc]
      rfl
    rw [hrest] at hsplit
    rw [← stripChars_append _ hblank, hsplit]

theorem stripChars_dropWhile (t : Text) : stripChars (t.dropWhile isSpace) = stripChars t := by
  rw [stripChars, List.dropWhile_idempotent, stripChars]

/-- What follows a command, once it is allowed. -/
theorem head?_separated (s : Cursor) :
    (((Regex.seq separated (wordsEnd isSpace "args")).run s).head?.map Cursor.groups) =
      if ends s.after then
        some (if s.after = [] then s.groups
          else ("args", (s.after.dropWhile isSpace).takeWhile dot) :: s.groups)
      else none := by
  have hwords := head?_wordsEnd (p := isSpace) rfl "args" s
  rw [run_seq, run_separated]
  by_cases hrest : s.after = []
  · rw [if_pos (.inl hrest), List.flatMap_singleton, hwords]
    simp [hrest, ends]
  · by_cases hspace : s.after.head?.any isSpace = true
    · rw [if_pos (.inr hspace), List.flatMap_singleton, hwords]
      simp [hrest, hspace, ends]
    · rw [if_neg (by simp [hrest, hspace])]
      simp [hrest, hspace, ends]

/-- The parsed command when a name fits. -/
def parsedAs (u : Unicode) (lookup : List (Text × Text)) (name text : Text) :
    ParsedMatrixCommand :=
  let matched := text.take name.length
  { command := (dictGet? lookup (u.casefold matched)).getD matched
    args := stripChars (text.drop name.length) }

/-- What the groups of a match hold: the name and, up to blanks, what follows it. -/
theorem group?_of_ends {name : String} (hname : "args" ≠ name) {found : Cursor}
    {matched after : Text} (hends : ends after = true)
    (hgroups : found.groups = if after = [] then [(name, matched)]
      else [("args", (after.dropWhile isSpace).takeWhile dot), (name, matched)]) :
    (found.group? name).getD [] = matched ∧
      stripChars ((found.group? "args").getD []) = stripChars after := by
  have hne : ("args" == name) = false := by simpa using hname
  have hne' : (name == "args") = false := by simpa using Ne.symm hname
  by_cases hnil : after = []
  · rw [if_pos hnil] at hgroups
    simp [Cursor.group?, hgroups, hnil, hne']
  · have hline : oneLine (after.dropWhile isSpace) = true := by
      simp only [ends, List.isEmpty_iff, hnil, Bool.or_eq_true, Bool.and_eq_true, false_or] at hends
      exact hends.2
    rw [if_neg hnil] at hgroups
    simp [Cursor.group?, hgroups, hne, stripChars_takeWhile_dot hline, stripChars_dropWhile]

theorem map_parsedFrom {lookup : List (Text × Text)} {before after name text : Text}
    (hcut : cut? u.same name text = some after) :
    ((Regex.seq separated (wordsEnd isSpace "args")).run
        ⟨before, after, [("command", text.take name.length)]⟩).head?.map (parsedFrom u lookup) =
      if ends after then some (parsedAs u lookup name text) else none := by
  have hgroups := head?_separated ⟨before, after, [("command", text.take name.length)]⟩
  by_cases h : ends after = true
  · rw [if_pos h] at hgroups ⊢
    obtain ⟨found, hfound, hgroups⟩ := Option.map_eq_some_iff.1 hgroups
    obtain ⟨hmatched, hargs⟩ := group?_of_ends (by decide) h hgroups
    rw [hfound, Option.map_some, parsedFrom, hmatched, hargs, (cut?_eq_drop hcut).1]
    rfl
  · rw [if_neg h] at hgroups ⊢
    rw [Option.map_eq_none_iff.1 hgroups]
    rfl

/-- **The expression accepts the first of the longest commands that fit.** -/
theorem matchBangCommand_eq (lookup : List (Text × Text)) (message : Text) :
    matchBangCommand u message lookup =
      if message.head? = some '!' then
        ((choices (longestFirst (lookup.map Prod.snd))).find? (Fits u · message.tail)).map
          (parsedAs u lookup · message.tail)
      else none := by
  cases message with
  | nil => rfl
  | cons c text =>
    rw [matchBangCommand, if_neg (List.cons_ne_nil _ _), match?, commandPattern, run_seq]
    have hstart : atStart.run (.start (c :: text)) = [⟨[], c :: text, []⟩] := rfl
    rw [hstart, List.flatMap_singleton, run_seq]
    by_cases hc : c = '!'
    · have hbang : (Regex.one (· == '!')).run ⟨[], c :: text, []⟩ = [⟨[c], text, []⟩] := by
        simp [run, hc]
      rw [hbang, List.flatMap_singleton, head?_group_alts, List.map_findSome?, if_pos (by simp [hc])]
      apply findSome?_eq_map_find?
      intro name _
      rw [Function.comp_apply, List.tail_cons, Fits]
      cases hcut : cut? u.same name text with
      | none => rfl
      | some rest =>
        rw [Option.bind_some, Option.any_some, ← map_parsedFrom hcut]
    · have hbang : (Regex.one (· == '!')).run ⟨[], c :: text, []⟩ = [] := by
        simp [run, hc]
      rw [hbang, if_neg (by simpa using hc)]
      rfl

/-! ## The grammar -/

/-- A name that fits, among the longest ones that do. -/
structure LongestFit (u : Unicode) (names : List Text) (text name : Text) : Prop where
  mem : name ∈ names
  fits : Fits u name text = true
  longest : ∀ other ∈ names, Fits u other text = true → other.length ≤ name.length

theorem mem_choices_longestFirst {names : List Text} {name : Text} :
    name ∈ choices (longestFirst names) ↔ name ∈ choices names := by
  have hmem (t : Text) : t ∈ longestFirst names ↔ t ∈ names := List.mem_insertionSort _
  cases names with
  | nil => rfl
  | cons t ts =>
    have hne : longestFirst (t :: ts) ≠ [] :=
      List.ne_nil_of_mem ((hmem t).2 List.mem_cons_self)
    rw [choices, choices, List.isEmpty_eq_false_iff.2 hne]
    exact hmem name

theorem sorted_choices (names : List Text) :
    (choices (longestFirst names)).Pairwise fun a b => b.length ≤ a.length := by
  have hsorted : (longestFirst names).Pairwise fun a b => b.length ≤ a.length := by
    have : Std.Total fun a b : Text => b.length ≤ a.length := ⟨fun a b => Nat.le_total _ _⟩
    have : IsTrans Text fun a b => b.length ≤ a.length := ⟨fun a b c h h' => h'.trans h⟩
    exact List.pairwise_insertionSort _ names
  unfold choices
  split_ifs
  · exact List.pairwise_singleton _ _
  · exact hsorted

theorem longestFit_of_find {names : List Text} {text name : Text}
    (h : (choices (longestFirst names)).find? (Fits u · text) = some name) :
    LongestFit u (choices names) text name := by
  obtain ⟨hfits, before, after, hsplit, hbefore⟩ := List.find?_eq_some_iff_append.1 h
  have hsorted := sorted_choices names
  have hmem (t : Text) : t ∈ choices names ↔ t ∈ before ++ name :: after := by
    rw [← mem_choices_longestFirst, hsplit]
  rw [hsplit] at hsorted
  refine ⟨(hmem name).2 (by simp), hfits, ?_⟩
  intro other hother hfit
  obtain hin | hin := List.mem_append.1 ((hmem other).1 hother)
  · exact absurd hfit (by simpa using hbefore other hin)
  · obtain rfl | hin := List.mem_cons.1 hin
    · exact le_rfl
    · exact (List.pairwise_cons.1 (List.pairwise_append.1 hsorted).2.1).1 other hin

/-- Either no alternative fits a text or there is a longest one. -/
theorem longestFit_cases (u : Unicode) (names : List Text) (text : Text) :
    (∀ name ∈ choices names, ¬ Fits u name text = true) ∨
      ∃ name, LongestFit u (choices names) text name := by
  cases h : (choices (longestFirst names)).find? (Fits u · text) with
  | none =>
    refine .inl ?_
    intro name hname
    exact List.find?_eq_none.1 h name (mem_choices_longestFirst.2 hname)
  | some name => exact .inr ⟨name, longestFit_of_find h⟩

theorem LongestFit.length_eq {names : List Text} {text name other : Text}
    (h : LongestFit u names text name) (h' : LongestFit u names text other) :
    name.length = other.length :=
  le_antisymm (h'.longest name h.mem h.fits) (h.longest other h'.mem h'.fits)

theorem matchBangCommand_of_fit {lookup : List (Text × Text)} {text name : Text}
    (h : LongestFit u (choices (lookup.map Prod.snd)) text name) :
    matchBangCommand u ('!' :: text) lookup = some (parsedAs u lookup name text) := by
  rw [matchBangCommand_eq, List.head?_cons, if_pos rfl, List.tail_cons]
  cases hfind : (choices (longestFirst (lookup.map Prod.snd))).find? (Fits u · text) with
  | none =>
    have := List.find?_eq_none.1 hfind name (mem_choices_longestFirst.2 h.mem)
    exact absurd h.fits this
  | some found =>
    have hlen := (longestFit_of_find hfind).length_eq h
    rw [Option.map_some, parsedAs, parsedAs, hlen]

theorem matchBangCommand_of_no_fit {lookup : List (Text × Text)} {text : Text}
    (h : ∀ name ∈ choices (lookup.map Prod.snd), ¬ Fits u name text = true) :
    matchBangCommand u ('!' :: text) lookup = none := by
  rw [matchBangCommand_eq, List.head?_cons, if_pos rfl, List.tail_cons, Option.map_eq_none_iff,
    List.find?_eq_none]
  exact fun name hname => h name (mem_choices_longestFirst.1 hname)

theorem matchBangCommand_of_no_bang {message : Text} (h : message.head? ≠ some '!')
    (lookup : List (Text × Text)) : matchBangCommand u message lookup = none := by
  rw [matchBangCommand_eq, if_neg h]

/-- A message is an exclamation mark, a name up to case, and a rest that begins with a blank. -/
def Carries (u : Unicode) (message name rest : Text) : Prop :=
  ∃ matched, message = '!' :: (matched ++ rest) ∧ u.casefold matched = u.casefold name ∧
    (rest = [] ∨ rest.head?.any isSpace = true)

/-- The name is among the longest registered ones that the message carries. -/
def IsLongest (u : Unicode) (commands : List Py) (message name : Text) : Prop :=
  ∀ other ∈ registered u commands, ∀ rest, Carries u message other rest →
    other.length ≤ name.length

/-- The grammar of commands: what is accepted and what is returned. -/
structure ObeysGrammar (u : Unicode) (commands : List Py) (message : Text)
    (result : Option ParsedMatrixCommand) : Prop where
  accepts : result.isSome = true ↔
    ∃ name ∈ registered u commands, ∃ rest, Carries u message name rest
  returns : ∀ parsed, result = some parsed →
    parsed.command ∈ registered u commands ∧
    (∃ rest, Carries u message parsed.command rest ∧ parsed.args = stripChars rest) ∧
    IsLongest u commands message parsed.command

/-- Nothing is carried and nothing fits, or what a longest fitting alternative covers is up to case
a registered command, and no longer one is carried. -/
def CarriesWhatFits (u : Unicode) (commands : List Py) (message : Text) : Prop :=
  ((∀ name ∈ registered u commands, ∀ rest, ¬ Carries u message name rest) ∧
    (message.head? = some '!' →
      ∀ name ∈ choices (registered u commands), ¬ Fits u name message.tail = true)) ∨
  (message.head? = some '!' ∧
    ∃ fitting, LongestFit u (choices (registered u commands)) message.tail fitting ∧
      ∃ name ∈ registered u commands,
        u.casefold name = u.casefold (message.tail.take fitting.length) ∧
        IsLongest u commands message name)

theorem ends_of_fits {name text : Text} (h : Fits u name text = true) :
    ends (text.drop name.length) = true := by
  obtain ⟨rest, hcut, hends⟩ := (Option.any_eq_true _ _).1 h
  rwa [← (cut?_eq_drop hcut).1]

theorem separated_of_ends {rest : Text} (h : ends rest = true) :
    rest = [] ∨ rest.head?.any isSpace = true := by
  simp only [ends, Bool.or_eq_true, List.isEmpty_iff, Bool.and_eq_true] at h
  exact h.imp id And.left

theorem Carries.head? {message name rest : Text} (h : Carries u message name rest) :
    message.head? = some '!' := by
  obtain ⟨matched, rfl, -⟩ := h
  rfl

/-- The parser returns what it has covered, up to case. -/
theorem casefold_parsedAs {lookup : List (Text × Text)} (hwf : WellFormed u lookup)
    (fitting text : Text) :
    u.casefold (parsedAs u lookup fitting text).command =
      u.casefold (text.take fitting.length) := by
  cases hget : dictGet? lookup (u.casefold (text.take fitting.length)) with
  | none =>
    have hself : (parsedAs u lookup fitting text).command = text.take fitting.length := by
      rw [parsedAs, hget]
      rfl
    rw [hself]
  | some name =>
    have hname : (parsedAs u lookup fitting text).command = name := by
      rw [parsedAs, hget]
      rfl
    rw [hname]
    exact (hwf.of_get hget).2

/-- Nothing is returned in accordance with the grammar when nothing is carried. -/
theorem obeysGrammar_none {commands : List Py} {message : Text} :
    ObeysGrammar u commands message none ↔
      ∀ name ∈ registered u commands, ∀ rest, ¬ Carries u message name rest := by
  constructor
  · intro h name hname rest hcarries
    exact absurd (h.accepts.2 ⟨name, hname, rest, hcarries⟩) (by simp)
  · intro h
    refine ⟨iff_of_false (by simp) ?_, by simp⟩
    rintro ⟨name, hname, rest, hcarries⟩
    exact h name hname rest hcarries

/-- **Grammar.** The parser follows the grammar of commands if and only if what fits is what the
message carries. -/
theorem obeysGrammar_iff (u : Unicode) (commands : List Py) (message : Text) :
    ObeysGrammar u commands message
        (matchBangCommand u message (buildCommandLookup u commands)) ↔
      CarriesWhatFits u commands message := by
  have hwf : WellFormed u (buildCommandLookup u commands) := wellFormed_buildCommandLookup commands
  cases message with
  | nil =>
    rw [matchBangCommand_of_no_bang (by simp), obeysGrammar_none]
    refine iff_of_true ?_ (.inl ⟨?_, by simp⟩) <;>
      exact fun name _ rest hcarries => absurd hcarries.head? (by simp)
  | cons c text =>
    by_cases hc : c = '!'
    · subst hc
      obtain hno | ⟨fitting, hfit⟩ := longestFit_cases u (registered u commands) text
      · rw [matchBangCommand_of_no_fit hno, obeysGrammar_none]
        constructor
        · intro h
          exact .inl ⟨h, fun _ => hno⟩
        · rintro (⟨h, -⟩ | ⟨-, fitting, hfit, -⟩)
          · exact h
          · exact absurd hfit.fits (hno fitting hfit.mem)
      · rw [matchBangCommand_of_fit hfit]
        constructor
        · intro h
          obtain ⟨hmem, -, hlongest⟩ := h.returns _ rfl
          exact .inr ⟨rfl, fitting, hfit, _, hmem, casefold_parsedAs hwf fitting text, hlongest⟩
        · rintro (⟨-, hno⟩ | ⟨-, other, hother, name, hname, hfold, hlongest⟩)
          · exact absurd hfit.fits (hno rfl fitting hfit.mem)
          · rw [List.tail_cons] at hother hfold
            have hcommand : (parsedAs u (buildCommandLookup u commands) fitting text).command =
                name := by
              rw [parsedAs, hfit.length_eq hother, ← hfold, hwf.get_casefold hname]
              rfl
            have hcarries : Carries u ('!' :: text) name (text.drop fitting.length) := by
              refine ⟨text.take fitting.length, by rw [List.take_append_drop], ?_,
                separated_of_ends (ends_of_fits hfit.fits)⟩
              rw [hfit.length_eq hother, hfold]
            refine ⟨iff_of_true rfl ⟨name, hname, _, hcarries⟩, ?_⟩
            intro parsed hparsed
            obtain rfl := Option.some.inj hparsed
            rw [hcommand]
            exact ⟨hname, ⟨_, hcarries, rfl⟩, hlongest⟩
    · rw [matchBangCommand_of_no_bang (by simpa using hc), obeysGrammar_none]
      refine iff_of_true ?_ (.inl ⟨?_, fun h => absurd h (by simpa using hc)⟩) <;>
        exact fun name _ rest hcarries => absurd hcarries.head? (by simpa using hc)

theorem not_isSpace_of_isAlphanum {c : Char} (h : c.isAlphanum = true) : isSpace c = false := by
  have hrange : 48 ≤ c.toNat ∧ c.toNat ≤ 122 := by
    simp only [Char.isAlphanum, Char.isAlpha, Char.isUpper, Char.isLower, Char.isDigit,
      Bool.or_eq_true, Bool.and_eq_true, decide_eq_true_eq, UInt32.le_iff_toNat_le] at h
    have hval : c.val.toNat = c.toNat := rfl
    simp only [hval, Char.reduceVal, UInt32.reduceToNat] at h
    omega
  simp only [isSpace, List.contains_eq_mem, decide_eq_false_iff_not, List.mem_cons, not_or,
    List.not_mem_nil, not_false_eq_true, and_true]
  omega

/-- The tables on ASCII characters. -/
def asciiTables : Unicode where
  same c d := c == d || (c.isAlpha && d.isAlpha && c.toLower == d.toLower)
  casefoldChar c := [c.toLower]
  lower t := t.map Char.toLower
  word c := c.isAlphanum || c == '_'
  same_self c := by simp
  same_space c d h := by
    rw [Bool.or_eq_true, beq_iff_eq, Bool.and_eq_true, Bool.and_eq_true] at h
    obtain rfl | ⟨⟨hc, hd⟩, -⟩ := h
    · rfl
    · rw [not_isSpace_of_isAlphanum (by simp [Char.isAlphanum, hc]),
        not_isSpace_of_isAlphanum (by simp [Char.isAlphanum, hd])]
  word_space c h := by
    rw [Bool.or_eq_false_iff]
    constructor
    · by_contra hword
      exact absurd h (by simp [not_isSpace_of_isAlphanum (Bool.of_not_eq_false hword)])
    · by_contra hword
      rw [Bool.not_eq_false, beq_iff_eq] at hword
      exact absurd h (by rw [hword]; decide)

/-- Arguments of two lines are refused. -/
theorem twoLines_refused :
    ¬ ∀ (u : Unicode) (commands : List Py) (message : Text), ObeysGrammar u commands message
      (matchBangCommand u message (buildCommandLookup u commands)) := by
  intro h
  have hobeys := h asciiTables [.str "echo"] "!echo one\ntwo".toList
  have hnone : matchBangCommand asciiTables "!echo one\ntwo".toList
      (buildCommandLookup asciiTables [.str "echo"]) = none := by decide +kernel
  rw [hnone, obeysGrammar_none] at hobeys
  exact hobeys "echo".toList (by decide +kernel) " one\ntwo".toList
    ⟨"echo".toList, by decide +kernel⟩

end MMRelay.Commands
