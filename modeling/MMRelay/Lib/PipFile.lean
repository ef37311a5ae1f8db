import MMRelay.Lib.Shlex

/-!
# The requirement files of pip

How pip reads a requirements file: logical lines without comments, in which the values of
environment variables are put, and each of which is a requirement followed by options that are
split like a shell line.

* `joinLines`, `cutComment`, `expandEnv`, `logicalLines`: the lines;
* `breakArgsOptions`, `lineTokens`: the tokens of a line;
* **`logicalLines_plain`**, **`lineTokens_plain`**: on plain text these are the tokens of a shell.
-/

namespace MMRelay.PipFile

/-! ## Logical lines -/

/-- The text of a file with these lines. -/
def fileText (lines : List Text) : Text := lines.flatMap (· ++ ['\n'])

/-- Decoding drops a byte order mark. -/
def decode : Text → Text
  | [] => []
  | c :: cs => if c = '\uFEFF' then cs else c :: cs

/-- `COMMENT_RE` matches at the start of the line. -/
def isCommentLine (line : Text) : Bool := (line.dropWhile isSpace).head? == some '#'

/-- `line.strip("\\")`. -/
def stripBackslashes (line : Text) : Text :=
  ((line.dropWhile (· == '\\')).reverse.dropWhile (· == '\\')).reverse

/-- A line that ends in a backslash goes on with the next one, unless it is a comment. -/
def joinLines : Option Text → List Text → List Text
  | pending, [] => pending.toList
  | pending, line :: rest =>
    if line.getLast? == some '\\' && !isCommentLine line then
      joinLines (some (pending.getD [] ++ stripBackslashes line)) rest
    else
      -- a blank is put before a comment, for it to be one in the joined line
      (pending.getD [] ++ if isCommentLine line then ' ' :: line else line) :: joinLines none rest

/-- The text before a hash sign that begins the line or follows a blank. -/
def cutComment (afterBlank : Bool) : Text → Text
  | [] => []
  | c :: cs => if afterBlank && c == '#' then [] else c :: cutComment (isSpace c) cs

/-- Where the search for a variable is. -/
inductive EnvState
  | outside
  | dollar
  | name (read : Text)

def isEnvChar (c : Char) : Bool :=
  ('A'.toNat ≤ c.toNat && c.toNat ≤ 'Z'.toNat) || ('0'.toNat ≤ c.toNat && c.toNat ≤ '9'.toNat) ||
    c == '_'

/-- The names of the variables `${NAME}` in a line, from left to right. -/
def envNames : EnvState → Text → List Text
  | _, [] => []
  | .outside, c :: cs => envNames (if c == '$' then .dollar else .outside) cs
  | .dollar, c :: cs =>
    envNames (if c == '{' then .name [] else if c == '$' then .dollar else .outside) cs
  | .name read, c :: cs =>
    if isEnvChar c then envNames (.name (read ++ [c])) cs
    else if c == '}' && !read.isEmpty then read :: envNames .outside cs
    else envNames (if c == '$' then .dollar else .outside) cs

/-- `s.replace(old, new)` of a non-empty `old`; so many characters are still to be passed over. -/
def replaceFrom (old new : Text) : ℕ → Text → Text
  | _, [] => []
  | skip + 1, _ :: cs => replaceFrom old new skip cs
  | 0, c :: cs =>
    if old.isPrefixOf (c :: cs) then new ++ replaceFrom old new (old.length - 1) cs
    else c :: replaceFrom old new 0 cs

/-- One variable; those that are not set or empty stay as they are. -/
def expandVariable (getenv : Text → Text) (line name : Text) : Text :=
  if (getenv name).isEmpty then line
  else replaceFrom ('$' :: '{' :: name ++ ['}']) (getenv name) 0 line

def expandEnv (getenv : Text → Text) (line : Text) : Text :=
  (envNames .outside line).foldl (expandVariable getenv) line

/-- `preprocess`. -/
def logicalLines (getenv : Text → Text) (content : Text) : List Text :=
  let joined := joinLines none (splitLinesAux (decode content) [])
  ((joined.map fun line => stripChars (cutComment true line)).filter (!·.isEmpty)).map
    (expandEnv getenv)

/-! ## Arguments and options -/

/-- `break_args_options`: the options begin with the first word that begins with a hyphen. -/
def breakArgsOptions (line : Text) : List Text × Text :=
  let isArg (token : Text) : Bool := token.head? != some '-'
  let tokens := line.splitOn ' '
  (tokens.takeWhile isArg, [' '].intercalate (tokens.dropWhile isArg))

/-- The words of the requirement of a line, and the tokens of its options; `none` when these cannot
be split. -/
def lineTokens (line : Text) : List Text × Option (List Text) :=
  let parts := breakArgsOptions line
  (parts.1.flatMap words, shlexSplit false parts.2)

example : lineTokens "a' -i'b' c#d".toList =
    (["a'".toList], some ["-ib".toList, "c#d".toList]) := by decide +kernel

/-! ## Plain lines -/

/-- Nothing in the line has a meaning for the lexer or for pip. -/
structure Plain (line : Text) : Prop where
  text : PlainText line
  noVariable : '$' ∉ line
  noMark : line.head? ≠ some '\uFEFF'
  stripped : stripChars line = line
  nonempty : line ≠ []

theorem not_isLineBreak {c : Char} (h : isSpace c = true → c = ' ') : isLineBreak c = false := by
  by_contra hbreak
  have hspace : isSpace c = true := by
    simp only [Bool.not_eq_false, isLineBreak, isSpace, List.contains_iff_mem, List.mem_cons,
      List.not_mem_nil, or_false] at hbreak ⊢
    tauto
  rw [h hspace] at hbreak
  exact hbreak rfl

theorem splitLinesAux_plain {s : Text} (h : ∀ c ∈ s, isLineBreak c = false) (acc : Text) :
    splitLinesAux (s ++ ['\n']) acc = [acc.reverse ++ s] := by
  induction s generalizing acc with
  | nil => simp [splitLinesAux, isLineBreak]
  | cons c cs ih =>
    have hc := h c List.mem_cons_self
    have hstep : splitLinesAux (c :: (cs ++ ['\n'])) acc =
        splitLinesAux (cs ++ ['\n']) (c :: acc) := by
      rw [splitLinesAux.eq_3, if_neg (by rw [hc]; exact Bool.false_ne_true)]
      intro cs' hreturn
      rw [hreturn] at hc
      exact absurd hc (by decide)
    rw [List.cons_append, hstep, ih fun d hd => h d (List.mem_cons_of_mem _ hd)]
    simp

theorem cutComment_plain {s : Text} (h : '#' ∉ s) (afterBlank : Bool) :
    cutComment afterBlank s = s := by
  induction s generalizing afterBlank with
  | nil => rfl
  | cons c cs ih =>
    rw [List.mem_cons, not_or] at h
    simp [cutComment, Ne.symm h.1, ih h.2]

theorem envNames_plain {s : Text} (h : '$' ∉ s) : envNames .outside s = [] := by
  induction s with
  | nil => rfl
  | cons c cs ih =>
    rw [List.mem_cons, not_or] at h
    simp [envNames, Ne.symm h.1, ih h.2]

/-- **A plain line** is read as it is. -/
theorem logicalLines_plain {line : Text} (h : Plain line) (getenv : Text → Text) :
    logicalLines getenv (fileText [line]) = [line] := by
  have hcomment : '#' ∉ line := fun hmem => (h.text _ hmem).2.2.2 rfl
  have hdecode : decode (line ++ ['\n']) = line ++ ['\n'] := by
    cases line with
    | nil => exact absurd rfl h.nonempty
    | cons c cs => exact if_neg fun hmark => h.noMark (by rw [hmark]; rfl)
  have hgoesOn : (line.getLast? == some '\\') = false := by
    rw [beq_eq_false_iff_ne]
    exact fun hlast => (h.text _ (List.mem_of_getLast? hlast)).2.2.1 rfl
  have hnoComment : isCommentLine line = false := by
    unfold isCommentLine
    rw [beq_eq_false_iff_ne]
    intro hhead
    exact hcomment ((List.dropWhile_sublist _).subset (List.mem_of_head? hhead))
  unfold logicalLines fileText
  rw [List.flatMap_singleton, hdecode,
    splitLinesAux_plain fun c hc => not_isLineBreak (h.text c hc).1]
  simp [joinLines, hgoesOn, hnoComment, cutComment_plain hcomment, h.stripped, h.nonempty,
    expandEnv, envNames_plain h.noVariable]

theorem words_append (s t : Text) : words (s ++ ' ' :: t) = words s ++ words t := by
  unfold words
  rw [List.splitOnP_append_cons _ _ rfl, List.filter_append]

theorem words_intercalate (ts : List Text) : words ([' '].intercalate ts) = ts.flatMap words := by
  induction ts with
  | nil => rfl
  | cons t ts ih =>
    cases ts with
    | nil => exact (congrArg words List.intercalate_singleton).trans (List.append_nil _).symm
    | cons t' ts =>
      rw [List.flatMap_cons, ← ih, ← words_append]
      simp [List.intercalate]

theorem intercalate_dropWhile_suffix (p : Text → Bool) (ts : List Text) :
    [' '].intercalate (ts.dropWhile p) <:+ [' '].intercalate ts := by
  induction ts with
  | nil => exact List.suffix_rfl
  | cons t ts ih =>
    rw [List.dropWhile_cons]
    split_ifs
    · refine ih.trans ?_
      cases ts with
      | nil => exact List.nil_suffix
      | cons t' ts => exact ⟨t ++ [' '], by simp [List.intercalate]⟩
    · exact List.suffix_rfl

/-- **The tokens of a plain line** are its words. -/
theorem lineTokens_plain {line : Text} (h : PlainText line) :
    ∃ options, (lineTokens line).2 = some options ∧
      (lineTokens line).1 ++ options = words line := by
  have hline := (List.intercalate_splitOn ' ' : [' '].intercalate (line.splitOn ' ') = line)
  refine ⟨_, shlexSplit_plain fun c hc => h c ?_, ?_⟩
  · rw [← hline]
    exact (intercalate_dropWhile_suffix _ _).subset hc
  · show List.flatMap words _ ++ words _ = _
    unfold breakArgsOptions
    rw [words_intercalate, ← List.flatMap_append, List.takeWhile_append_dropWhile,
      ← words_intercalate, hline]

end MMRelay.PipFile
