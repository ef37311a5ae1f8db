import MMRelay.Commands.Mention

/-!
# Commands from the mesh

`parse_mesh_bang_command` (`plugins/base_plugin.py`), a second parser of the same commands, and
when it agrees with the one for Matrix messages.

* `parseMeshBangCommand`;
* `parseMesh_eq`: it accepts the first registered command that fits and ends in a word character;
* `fits_trimmed`: what it accepts fits the trimmed text;
* **`grammars_agree_iff`**: when the two parsers return the same.
-/

namespace MMRelay.Commands

open Regex

variable (u : Unicode)

/-- One command of the loop of `parse_mesh_bang_command`: the dictionary and the names. -/
def meshStep (found : List (Text × Text) × List Text) (command : Py) :
    List (Text × Text) × List Text :=
  match commandName command with
  | none => found
  | some normalized =>
    let key := u.casefold normalized
    if (dictGet? found.1 key).isSome then found
    else (dictSet found.1 key normalized, found.2 ++ [normalized])

/-- `!(?P<cmd>..)\b(?:\s+(?P<args>.*))?$` for the names. -/
def meshCommand (names : List Text) : Regex :=
  .seq (.one (· == '!')) (.seq (.group "cmd" (alts (names.map (literal u.same))))
    (.seq (boundary u.word) (wordsEnd isSpace "args")))

/-- The match of the expression: `(?:(?<=\s)|^)` anywhere, or `^\s*` at the start. -/
def meshMatch (names : List Text) (allowAnywhere : Bool) (text : Text) : Option Cursor :=
  if allowAnywhere then
    (Regex.seq (.alt (.assert fun before _ => before.head?.any isSpace) atStart)
      (meshCommand u names)).search? text
  else (Regex.seq atStart (.seq (.many isSpace) (meshCommand u names))).match? text

/-- `parse_mesh_bang_command`. -/
def parseMeshBangCommand (text : Py) (commands : List Py) (allowAnywhere : Bool) :
    Option (Text × Text) :=
  match text with
  | .str s =>
    let (commandLookup, normalizedCommands) := commands.foldl (meshStep u) ([], [])
    if normalizedCommands = [] then none
    else
      (meshMatch u normalizedCommands allowAnywhere s.toList).map fun found =>
        let matchedCmd := (found.group? "cmd").getD []
        ((dictGet? commandLookup (u.casefold matchedCmd)).getD matchedCmd,
          stripChars ((found.group? "args").getD []))
  | _ => none

/-! ## What the mesh parser accepts -/

variable {u}

theorem meshStep_eq (lookup : List (Text × Text)) (command : Py) :
    meshStep u (lookup, lookup.map Prod.snd) command =
      (addCommand u lookup command, (addCommand u lookup command).map Prod.snd) := by
  unfold meshStep addCommand
  cases commandName command with
  | none => rfl
  | some name =>
    by_cases hkey : (dictGet? lookup (u.casefold name)).isSome = true
    · simp only [hkey, if_true]
    · have hnew := notMem_of_dictGet?_eq_none (Option.not_isSome_iff_eq_none.1 hkey)
      simp only [hkey, Bool.false_eq_true, if_false, dictSet_of_notMem hnew, List.map_append,
        List.map_cons, List.map_nil]

theorem foldl_meshStep (commands : List Py) (lookup : List (Text × Text)) :
    commands.foldl (meshStep u) (lookup, lookup.map Prod.snd) =
      (commands.foldl (addCommand u) lookup,
        (commands.foldl (addCommand u) lookup).map Prod.snd) := by
  induction commands generalizing lookup with
  | nil => rfl
  | cons command commands ih => rw [List.foldl_cons, meshStep_eq, ih, List.foldl_cons]

/-- A name fits for the mesh parser: what it covers also ends in a word character. -/
def FitsMesh (u : Unicode) (name text : Text) : Bool :=
  Fits u name text && (text.take name.length).getLast?.any u.word

/-- What is returned for the position after a match. -/
def meshFrom (u : Unicode) (lookup : List (Text × Text)) (found : Cursor) : Text × Text :=
  let matched := (found.group? "cmd").getD []
  ((dictGet? lookup (u.casefold matched)).getD matched,
    stripChars ((found.group? "args").getD []))

/-- The pair that the mesh parser returns for a parsed command. -/
def ParsedMatrixCommand.pair (parsed : ParsedMatrixCommand) : Text × Text :=
  (parsed.command, parsed.args)

/-- Where a word ends, what may follow a command is what the expression for arguments takes. -/
theorem head?_bounded (name : String) (s : Cursor) :
    (((Regex.seq (boundary u.word) (wordsEnd isSpace name)).run s).head?.map Cursor.groups) =
      if s.before.head?.any u.word && ends s.after then
        some (if s.after = [] then s.groups
          else (name, (s.after.dropWhile isSpace).takeWhile dot) :: s.groups)
      else none := by
  have hwords := head?_wordsEnd (p := isSpace) rfl name s
  have hbound : (boundary u.word).run s =
      if s.before.head?.any u.word != s.after.head?.any u.word then [s] else [] := rfl
  rw [run_seq, hbound]
  cases hafter : s.after with
  | nil =>
    rw [if_pos hafter] at hwords
    cases hword : s.before.head?.any u.word <;> simp [ends, hwords]
  | cons c cs =>
    rw [if_neg (by simp [hafter])] at hwords
    cases hspace : isSpace c with
    | true =>
      have := u.word_space c hspace
      cases hword : s.before.head?.any u.word <;> simp [ends, hwords, hafter, hspace, this]
    | false =>
      have hno : ((wordsEnd isSpace name).run s).head? = none := by
        rw [hafter, List.head?_cons, Option.any_some, hspace] at hwords
        simpa using hwords
      have hends : ends (c :: cs) = false := by simp [ends, hspace]
      rw [hends, Bool.and_false]
      split_ifs <;> simp_all

theorem map_meshFrom {lookup : List (Text × Text)} {before after name text : Text}
    (hcut : cut? u.same name text = some after) :
    ((Regex.seq (boundary u.word) (wordsEnd isSpace "args")).run
        ⟨before, after, [("cmd", text.take name.length)]⟩).head?.map (meshFrom u lookup) =
      if before.head?.any u.word && ends after then
        some (parsedAs u lookup name text).pair
      else none := by
  have hgroups := head?_bounded (u := u) "args" ⟨before, after, [("cmd", text.take name.length)]⟩
  by_cases h : (before.head?.any u.word && ends after) = true
  · rw [if_pos h] at hgroups ⊢
    obtain ⟨found, hfound, hgroups⟩ := Option.map_eq_some_iff.1 hgroups
    obtain ⟨hmatched, hargs⟩ := group?_of_ends (by decide) (Bool.and_eq_true_iff.1 h).2 hgroups
    rw [hfound, Option.map_some, meshFrom, hmatched, hargs, (cut?_eq_drop hcut).1]
    rfl
  · rw [if_neg h] at hgroups ⊢
    rw [Option.map_eq_none_iff.1 hgroups]
    rfl

theorem choices_of_ne_nil {names : List Text} (h : names ≠ []) : choices names = names := by
  rw [choices, List.isEmpty_eq_false_iff.2 h]
  rfl

/-- The last character before what follows a name is the last one that the name covers. -/
theorem head?_covered {name text rest : Text} (hname : IsName name)
    (hcut : cut? u.same name text = some rest) (before : Text) :
    ((text.take name.length).reverse ++ before).head? = (text.take name.length).getLast? := by
  have hne : text.take name.length ≠ [] := by
    have := (cut?_eq_drop hcut).2
    have hpos : 0 < name.length := List.length_pos_iff.2 hname.ne_nil
    exact List.ne_nil_of_length_pos (by rw [List.length_take]; omega)
  rw [List.head?_append_of_ne_nil _ (by simpa using hne), List.head?_reverse]

/-- **The mesh parser accepts the first registered command that fits.** -/
theorem parseMesh_eq (s : String) (commands : List Py) :
    parseMeshBangCommand u (.str s) commands false =
      if (s.toList.dropWhile isSpace).head? = some '!' then
        ((registered u commands).find? (FitsMesh u · (s.toList.dropWhile isSpace).tail)).map
          fun name => (parsedAs u (buildCommandLookup u commands) name
              (s.toList.dropWhile isSpace).tail).pair
      else none := by
  have hparse : parseMeshBangCommand u (.str s) commands false =
      if registered u commands = [] then none
      else (meshMatch u (registered u commands) false s.toList).map
        (meshFrom u (buildCommandLookup u commands)) := by
    have hloop := foldl_meshStep (u := u) commands []
    simp only [List.map_nil] at hloop
    simp only [parseMeshBangCommand, hloop]
    rfl
  rw [hparse]
  by_cases hnil : registered u commands = []
  · rw [if_pos hnil, hnil]
    split_ifs <;> rfl
  · have hstart : atStart.run (.start s.toList) = [.start s.toList] := rfl
    have hblank : ∀ c, isSpace c = true → (c == '!') = false := by
      intro c hc
      rw [beq_eq_false_iff_ne]
      rintro rfl
      exact absurd hc (by decide)
    rw [if_neg hnil, meshMatch, if_neg (by decide), match?, run_seq, hstart,
      List.flatMap_singleton, meshCommand, head?_skip hblank]
    change Option.map _ (Regex.run _ ⟨_, s.toList.dropWhile isSpace, []⟩).head? = _
    cases s.toList.dropWhile isSpace with
    | nil => rfl
    | cons c text =>
      rw [run_seq]
      by_cases hc : c = '!'
      · subst hc
        have hbang (before : Text) : (Regex.one (· == '!')).run ⟨before, '!' :: text, []⟩ =
            [⟨'!' :: before, text, []⟩] := rfl
        rw [hbang, List.flatMap_singleton, head?_group_alts, choices_of_ne_nil hnil,
          List.map_findSome?, List.head?_cons, if_pos rfl]
        apply findSome?_eq_map_find?
        intro name hname
        rw [Function.comp_apply, List.tail_cons, FitsMesh, Fits]
        cases hcut : cut? u.same name text with
        | none => rfl
        | some rest =>
          rw [Option.bind_some, Option.any_some, map_meshFrom hcut,
            head?_covered (isName_of_registered hname) hcut, Bool.and_comm]
      · have hbang (before : Text) : (Regex.one (· == '!')).run ⟨before, c :: text, []⟩ = [] := by
          simp [run, hc]
        rw [hbang, if_neg (by simpa using hc)]
        rfl

/-! ## The trimmed text -/

/-- What a name covers does not end in a blank. -/
theorem isName_covered {name text rest : Text} (hname : IsName name)
    (hcut : cut? u.same name text = some rest) :
    ∃ covered, text = covered ++ rest ∧ covered.length = name.length ∧ IsName covered := by
  obtain ⟨c, hc, hspace⟩ := hname
  obtain ⟨covered, rfl, hsame⟩ := cut?_eq_some_iff.1 hcut
  refine ⟨covered, rfl, hsame.length_eq.symm, ?_⟩
  have hrev := List.forall₂_reverse_iff.2 hsame
  rw [← List.head?_reverse] at hc
  obtain ⟨cs, hcs⟩ := List.head?_eq_some_iff.1 hc
  rw [hcs] at hrev
  obtain ⟨d, ds, hd, -, hds⟩ := List.forall₂_cons_left_iff.1 hrev
  exact ⟨d, by rw [← List.head?_reverse, hds, List.head?_cons], by rw [← u.same_space c d hd, hspace]⟩

theorem rdropWhile_append_of_isName {t : Text} (h : IsName t) (r : Text) :
    (t ++ r).rdropWhile isSpace = t ++ r.rdropWhile isSpace := by
  obtain ⟨c, hc, hspace⟩ := h
  rw [← List.head?_reverse] at hc
  obtain ⟨cs, hcs⟩ := List.head?_eq_some_iff.1 hc
  have hself : t.reverse.dropWhile isSpace = t.reverse := by
    rw [hcs, List.dropWhile_cons_of_neg (by simp [hspace])]
  rw [List.rdropWhile, List.rdropWhile, List.reverse_append, List.dropWhile_append]
  split_ifs with hnil
  · rw [hself, List.isEmpty_iff.1 hnil, List.reverse_reverse, List.reverse_nil, List.append_nil]
  · rw [List.reverse_append, List.reverse_reverse]

theorem stripChars_rdropWhile (t : Text) :
    stripChars (t.rdropWhile isSpace) = stripChars t := by
  have hblanks : ∀ c ∈ t.rtakeWhile isSpace, isSpace c = true :=
    fun c hc => List.mem_rtakeWhile_imp hc
  rw [← stripChars_append _ hblanks, List.rdropWhile_append_rtakeWhile]

theorem ends_rdropWhile {rest : Text} (h : ends rest = true) :
    ends (rest.rdropWhile isSpace) = true := by
  have hprefix : rest.rdropWhile isSpace <+: rest := List.rdropWhile_prefix _ _
  simp only [ends, Bool.or_eq_true, List.isEmpty_iff, Bool.and_eq_true] at h ⊢
  obtain rfl | ⟨hhead, hline⟩ := h
  · exact .inl rfl
  · cases htrim : rest.rdropWhile isSpace with
    | nil => exact .inl rfl
    | cons c cs =>
      rw [htrim] at hprefix
      obtain ⟨blanks, rfl⟩ := hprefix
      refine .inr ⟨by simpa using hhead, oneLine_of_prefix ?_ hline⟩
      rw [List.dropWhile_append]
      split_ifs with hnil
      · rw [List.isEmpty_iff.1 hnil]
        exact List.nil_prefix
      · exact List.prefix_append _ _

/-- What fits a text fits the text without the blanks at its end, and nothing else is parsed. -/
theorem fits_trimmed {name text : Text} (hname : IsName name) (h : Fits u name text = true) :
    Fits u name (text.rdropWhile isSpace) = true ∧
      ∀ lookup, parsedAs u lookup name (text.rdropWhile isSpace) = parsedAs u lookup name text := by
  obtain ⟨rest, hcut, hends⟩ := (Option.any_eq_true _ _).1 h
  obtain ⟨w, hw, hsame⟩ := cut?_eq_some_iff.1 hcut
  obtain ⟨covered, hcovered, hlen, hlast⟩ := isName_covered hname hcut
  obtain rfl : w = covered := List.append_cancel_right (hw.symm.trans hcovered)
  have htrim : text.rdropWhile isSpace = w ++ rest.rdropWhile isSpace := by
    rw [hw, rdropWhile_append_of_isName hlast]
  constructor
  · rw [Fits, Option.any_eq_true, htrim]
    exact ⟨_, cut?_eq_some_iff.2 ⟨w, rfl, hsame⟩, ends_rdropWhile hends⟩
  · intro lookup
    rw [parsedAs, parsedAs, htrim, hw, ← hlen, List.take_left, List.take_left, List.drop_left,
      List.drop_left, stripChars_rdropWhile]

theorem length_stripChars_le (t : Text) : (stripChars t).length ≤ t.length :=
  (List.rdropWhile_prefix (l := t.dropWhile isSpace) isSpace).length_le.trans
    (List.dropWhile_suffix isSpace).length_le

/-- A shorter command leaves more arguments. -/
theorem args_lt {name longer text : Text} (hname : IsName longer)
    (hlonger : Fits u longer text = true) (hlt : name.length < longer.length) :
    (stripChars (text.drop longer.length)).length < (stripChars (text.drop name.length)).length := by
  obtain ⟨rest, hcut, -⟩ := (Option.any_eq_true _ _).1 hlonger
  obtain ⟨covered, rfl, hlen, c, hc, hspace⟩ := isName_covered hname hcut
  have hdrop : (covered ++ rest).drop name.length = covered.drop name.length ++ rest :=
    List.drop_append_of_le_length (by omega)
  -- the part of the longer command that the shorter one leaves ends in a character of a name
  have hlast : (covered.drop name.length).getLast? = some c := by
    rw [List.getLast?_drop, if_neg (by omega), hc]
  have hmem : c ∈ (covered.drop name.length) := List.mem_of_getLast? hlast
  have hne : ((covered.drop name.length).dropWhile isSpace) ≠ [] := by
    rw [Ne, List.dropWhile_eq_nil_iff]
    intro hall
    exact absurd (hall c hmem) (by simp [hspace])
  have hname' : IsName ((covered.drop name.length).dropWhile isSpace) := by
    obtain ⟨blanks, hblanks⟩ := List.dropWhile_suffix (l := covered.drop name.length) isSpace
    rw [← hblanks, List.getLast?_append_of_ne_nil _ hne] at hlast
    exact ⟨c, hlast, hspace⟩
  have hlonger : stripChars (covered.drop name.length ++ rest) =
      (covered.drop name.length).dropWhile isSpace ++ rest.rdropWhile isSpace := by
    rw [← rdropWhile_append_of_isName hname', stripChars, List.dropWhile_append, if_neg (by simpa using hne)]
    rfl
  have hpos := List.length_pos_iff.2 hne
  have hle := length_stripChars_le (rest.rdropWhile isSpace)
  rw [stripChars_rdropWhile] at hle
  rw [hdrop, hlonger, ← hlen, List.drop_left, List.length_append]
  omega

/-! ## Agreement -/

/-- No registered command fits the trimmed text, or the first one that fits for the mesh parser is
among the longest that do. -/
def FirstIsLongest (u : Unicode) (names : List Text) (text : Text) : Prop :=
  (∀ name ∈ names, ¬ Fits u name (text.rdropWhile isSpace) = true) ∨
  ∃ before name after, names = before ++ name :: after ∧
    (∀ other ∈ before, ¬ FitsMesh u other text = true) ∧ FitsMesh u name text = true ∧
    LongestFit u names (text.rdropWhile isSpace) name

/-- Without an MXID of the bot a text is a command or nothing. -/
theorem parse_text {m : Markup} {rt : Builtins} {bot : Bot} (hbot : resolveName rt bot.userId = none)
    (s : Text) (commands : List Py) :
    parseMatrixMessageCommand u m rt bot (.text s) commands false =
      if registered u commands = [] then none
      else matchBangCommand u (stripChars s) (buildCommandLookup u commands) := by
  by_cases hnil : registered u commands = []
  · have hcommands : buildCommandLookup u commands = [] := List.map_eq_nil_iff.1 hnil
    rw [if_pos hnil, parseMatrixMessageCommand]
    exact if_pos hcommands
  · have hcommands : buildCommandLookup u commands ≠ [] := fun h => hnil (by rw [registered, h]; rfl)
    have hmentioned : ∀ body, mentioned u rt bot commands body = none := by
      intro body
      rw [mentioned, hbot]
      rfl
    have hbodies : bodies u m rt bot (.text s) = if stripChars s = [] then [] else [stripChars s] :=
      rfl
    rw [if_neg hnil, parse_optional hcommands, findSome?_or_of_none fun body _ => hmentioned body,
      hbodies]
    split_ifs with hblank
    · rw [hblank]
      rfl
    · rw [List.findSome?_singleton]
      rfl

theorem stripChars_bang {s text : Text} (h : s.dropWhile isSpace = '!' :: text) :
    stripChars s = '!' :: text.rdropWhile isSpace := by
  have hbang : IsName ['!'] := ⟨'!', rfl, rfl⟩
  have hstrip : stripChars s = (s.dropWhile isSpace).rdropWhile isSpace := rfl
  rw [hstrip, h]
  exact rdropWhile_append_of_isName hbang text

theorem head?_stripChars_ne {s : Text} (h : (s.dropWhile isSpace).head? ≠ some '!') :
    (stripChars s).head? ≠ some '!' := by
  have hprefix : stripChars s <+: s.dropWhile isSpace := List.rdropWhile_prefix _ _
  obtain ⟨blanks, hblanks⟩ := hprefix
  intro hbang
  apply h
  rw [← hblanks, List.head?_append, hbang]
  rfl

/-- The first name that fits for the mesh parser, against the longest one that fits. -/
theorem find_eq_longest_iff {commands : List Py} {text longest : Text}
    (h : LongestFit u (registered u commands) (text.rdropWhile isSpace) longest) :
    ((registered u commands).find? (FitsMesh u · text)).map
        (fun name => (parsedAs u (buildCommandLookup u commands) name text).pair) =
      some (parsedAs u (buildCommandLookup u commands) longest (text.rdropWhile isSpace)).pair ↔
    FirstIsLongest u (registered u commands) text := by
  have hfits (name : Text) : FitsMesh u name text = true → Fits u name text = true :=
    fun hname => (Bool.and_eq_true_iff.1 hname).1
  cases hfind : (registered u commands).find? (FitsMesh u · text) with
  | none =>
    refine iff_of_false (by simp) ?_
    rintro (hno | ⟨before, name, after, hnames, -, hname, -⟩)
    · exact hno longest h.mem h.fits
    · exact List.find?_eq_none.1 hfind name (by rw [hnames]; simp) hname
  | some name =>
    obtain ⟨hname, before, after, hnames, hbefore⟩ := List.find?_eq_some_iff_append.1 hfind
    have hmem : name ∈ registered u commands := by rw [hnames]; simp
    obtain ⟨htrimmed, hparsed⟩ := fits_trimmed (isName_of_registered hmem) (hfits name hname)
    rw [Option.map_some, Option.some.injEq, ← hparsed]
    constructor
    · intro hpair
      have hlen : longest.length ≤ name.length := by
        by_contra hlt
        have hargs := args_lt (isName_of_registered h.mem) h.fits (not_le.1 hlt)
        exact absurd (congrArg (fun pair => pair.2.length) hpair) hargs.ne'
      refine .inr ⟨before, name, after, hnames, by simpa using hbefore, hname, hmem, htrimmed, ?_⟩
      exact fun other hother hfit => (h.longest other hother hfit).trans hlen
    · rintro (hno | ⟨before', name', after', hnames', hbefore', hname', hlongest⟩)
      · exact absurd h.fits (hno longest h.mem)
      · have hfind' : (registered u commands).find? (FitsMesh u · text) = some name' :=
          List.find?_eq_some_iff_append.2 ⟨hname', before', after', hnames', by simpa using hbefore'⟩
        obtain rfl : name = name' := Option.some.inj (hfind.symm.trans hfind')
        rw [parsedAs, parsedAs, hlongest.length_eq h]

/-- **Two grammars.** Without an MXID of the bot the two parsers return the same if and only if, for
a text that is a command, the first command that fits is among the longest. -/
theorem grammars_agree_iff (u : Unicode) (m : Markup) (rt : Builtins) (bot : Bot)
    (hbot : resolveName rt bot.userId = none) (s : String) (commands : List Py) :
    parseMeshBangCommand u (.str s) commands false =
        (parseMatrixMessageCommand u m rt bot (.text s.toList) commands false).map
          ParsedMatrixCommand.pair ↔
      ∀ text, s.toList.dropWhile isSpace = '!' :: text →
        FirstIsLongest u (registered u commands) text := by
  rw [parse_text hbot, parseMesh_eq]
  by_cases hnil : registered u commands = []
  · rw [if_pos hnil, hnil]
    refine iff_of_true ?_ fun text _ => .inl (by simp)
    split_ifs <;> rfl
  · rw [if_neg hnil]
    by_cases hbang : (s.toList.dropWhile isSpace).head? = some '!'
    · obtain ⟨text, htext⟩ := List.head?_eq_some_iff.1 hbang
      rw [if_pos hbang, htext, List.tail_cons, stripChars_bang htext]
      have hall : (∀ other, '!' :: text = '!' :: other →
          FirstIsLongest u (registered u commands) other) ↔
          FirstIsLongest u (registered u commands) text := by
        simp
      rw [hall]
      obtain hno | ⟨longest, hlongest⟩ :=
        longestFit_cases u (registered u commands) (text.rdropWhile isSpace)
      · rw [matchBangCommand_of_no_fit hno]
        rw [choices_of_ne_nil hnil] at hno
        have hnone : (registered u commands).find? (FitsMesh u · text) = none := by
          rw [List.find?_eq_none]
          intro name hname hfit
          exact hno name hname
            (fits_trimmed (isName_of_registered hname) (Bool.and_eq_true_iff.1 hfit).1).1
        rw [hnone]
        exact iff_of_true rfl (.inl hno)
      · rw [matchBangCommand_of_fit hlongest, Option.map_some]
        rw [choices_of_ne_nil hnil] at hlongest
        exact find_eq_longest_iff hlongest
    · rw [if_neg hbang, matchBangCommand_of_no_bang (head?_stripChars_ne hbang)]
      refine iff_of_true rfl ?_
      intro text htext
      exact absurd (by rw [htext]; rfl) hbang

/-- A command of letters is the same in both grammars. -/
theorem grammars_agree_echo :
    parseMeshBangCommand asciiTables (.str "  !Echo hi") [.str "echo"] false =
      (parseMatrixMessageCommand asciiTables ⟨id, id⟩ plainBuiltins ⟨.none, .none⟩
        (.text "  !Echo hi".toList) [.str "echo"] false).map ParsedMatrixCommand.pair := by
  refine (grammars_agree_iff asciiTables ⟨id, id⟩ plainBuiltins ⟨.none, .none⟩ rfl "  !Echo hi"
    [.str "echo"]).2 ?_
  have hnames : registered asciiTables [.str "echo"] = ["echo".toList] := by decide +kernel
  intro text htext
  obtain rfl : "Echo hi".toList = text :=
    (List.cons.inj ((by decide +kernel : _ = '!' :: "Echo hi".toList).symm.trans htext)).2
  rw [hnames]
  refine .inr ⟨[], "echo".toList, [], rfl, by simp, by decide +kernel, by simp, by decide +kernel, ?_⟩
  intro other hother _
  rw [List.mem_singleton.1 hother]

/-- The mesh parser knows no command that ends in a sign. -/
theorem sign_refused :
    ¬ ∀ (u : Unicode) (m : Markup) (rt : Builtins) (bot : Bot),
      resolveName rt bot.userId = none → ∀ (s : String) (commands : List Py),
        parseMeshBangCommand u (.str s) commands false =
          (parseMatrixMessageCommand u m rt bot (.text s.toList) commands false).map
            ParsedMatrixCommand.pair := by
  intro h
  have hsame := h asciiTables ⟨id, id⟩ plainBuiltins ⟨.none, .none⟩ rfl "!c++ now" [.str "c++"]
  exact absurd hsame (by decide +kernel)

end MMRelay.Commands
