import MMRelay.Lib.PyValue
import MMRelay.Lib.TextFile

/-!
# Splitting a shell line

`shlex.split(line, comments, posix=True)` of the Python library as a state machine that reads one
character at a time.

* `LexState`, `lex`, `shlexSplit`;
* **`shlexSplit_plain`**: without quotes, escapes and comments it splits at blanks.
-/

namespace MMRelay

/-- The state of the lexer; an escape remembers the quote it is in. -/
inductive LexState
  | space
  | word
  | quote (q : Char)
  | escape (back : Option Char)
  | comment
  deriving DecidableEq

def isLexSpace (c : Char) : Bool := c = ' ' || c = '\t' || c = '\r' || c = '\n'

def isQuote (c : Char) : Bool := c = '\'' || c = '"'

/-- A token that is empty and was not quoted is none. -/
def emit (token : Text) (quoted : Bool) (tokens : List Text) : List Text :=
  if token.isEmpty && !quoted then tokens else token :: tokens

/-- The tokens of the rest of a line; `none` is the `ValueError` for an open quotation or an escape
of nothing. -/
def lex (comments : Bool) : LexState → Text → Bool → Text → Option (List Text)
  | .space, _, _, [] => some []
  | .space, _, _, c :: cs =>
    if isLexSpace c then lex comments .space [] false cs
    else if comments && c = '#' then lex comments .comment [] false cs
    else if c = '\\' then lex comments (.escape none) [] false cs
    else if isQuote c then lex comments (.quote c) [] false cs
    else lex comments .word [c] false cs
  | .comment, _, _, [] => some []
  | .comment, _, _, c :: cs =>
    if c = '\n' then lex comments .space [] false cs else lex comments .comment [] false cs
  | .quote _, _, _, [] => none
  | .quote q, token, _, c :: cs =>
    if c = q then lex comments .word token true cs
    else if c = '\\' ∧ q = '"' then lex comments (.escape (some q)) token true cs
    else lex comments (.quote q) (token ++ [c]) true cs
  | .escape _, _, _, [] => none
  | .escape none, token, quoted, c :: cs => lex comments .word (token ++ [c]) quoted cs
  | .escape (some q), token, quoted, c :: cs =>
    -- within quotes only the quote itself and the escape character can be escaped
    if c ≠ '\\' ∧ c ≠ q then lex comments (.quote q) (token ++ ['\\', c]) quoted cs
    else lex comments (.quote q) (token ++ [c]) quoted cs
  | .word, token, quoted, [] => some (emit token quoted [])
  | .word, token, quoted, c :: cs =>
    if isLexSpace c then (lex comments .space [] false cs).map (emit token quoted)
    else if comments && c = '#' then (lex comments .comment [] false cs).map (emit token quoted)
    else if isQuote c then lex comments (.quote c) token quoted cs
    else if c = '\\' then lex comments (.escape none) token quoted cs
    else lex comments .word (token ++ [c]) quoted cs

/-- `shlex.split(line, comments=comments)`. -/
def shlexSplit (comments : Bool) (line : Text) : Option (List Text) :=
  lex comments .space [] false line

example : shlexSplit true "a 'b c' d\\ e\"\" ''#x".toList =
    some ["a".toList, "b c".toList, "d e".toList, []] := by decide +kernel

/-- `s.split()`. -/
def words (s : Text) : List Text := (s.splitOnP isSpace).filter (!·.isEmpty)

/-- Nothing in the text has a meaning for the lexer, and its only blanks are spaces. -/
def PlainText (s : Text) : Prop :=
  ∀ c ∈ s, (isSpace c = true → c = ' ') ∧ isQuote c = false ∧ c ≠ '\\' ∧ c ≠ '#'

theorem PlainText.tail {c : Char} {cs : Text} (h : PlainText (c :: cs)) : PlainText cs :=
  fun d hd => h d (List.mem_cons_of_mem _ hd)

theorem isLexSpace_eq {c : Char} (h : isSpace c = true → c = ' ') : isLexSpace c = isSpace c := by
  rw [Bool.eq_iff_iff]
  constructor
  · intro hlex
    simp only [isLexSpace, Bool.or_eq_true, decide_eq_true_eq] at hlex
    rcases hlex with ((rfl | rfl) | rfl) | rfl <;> rfl
  · intro hspace
    rw [h hspace]
    rfl

/-- The lexer between and within the words of a plain text. -/
theorem lex_plain {comments : Bool} {cs : Text} (h : PlainText cs) :
    lex comments .space [] false cs = some (words cs) ∧
      ∀ token, token ≠ [] → lex comments .word token false cs =
        some (((cs.splitOnP isSpace).modifyHead (token ++ ·)).filter (!·.isEmpty)) := by
  induction cs with
  | nil =>
    refine ⟨by simp [lex, words], fun token htoken => ?_⟩
    simp [lex, emit, htoken]
  | cons c cs ih =>
    obtain ⟨hspace, hword⟩ := ih h.tail
    obtain ⟨hc, hquote, hescape, hcomment⟩ := h c List.mem_cons_self
    by_cases hblank : isSpace c = true
    · have hlex : isLexSpace c = true := (isLexSpace_eq hc).trans hblank
      refine ⟨?_, fun token htoken => ?_⟩
      · simp [lex, hlex, hspace, words, List.splitOnP_cons_eq_if_modifyHead, hblank]
      · simp [lex, hlex, hspace, words, List.splitOnP_cons_eq_if_modifyHead, hblank, emit, htoken]
    · have hlex : isLexSpace c = false := (isLexSpace_eq hc).trans (Bool.eq_false_iff.mpr hblank)
      have hjoin (token : Text) : (cs.splitOnP isSpace).modifyHead ((token ++ [c]) ++ ·) =
          ((c :: cs).splitOnP isSpace).modifyHead (token ++ ·) := by
        rw [List.splitOnP_cons_eq_if_modifyHead, if_neg hblank, List.modifyHead_modifyHead]
        congr 1
        funext first
        simp
      refine ⟨?_, fun token htoken => ?_⟩
      · have hstep : lex comments .space [] false (c :: cs) = lex comments .word [c] false cs := by
          simp [lex, hlex, hquote, hescape, hcomment]
        rw [hstep, hword [c] (List.cons_ne_nil _ _), words, List.splitOnP_cons_eq_if_modifyHead,
          if_neg hblank]
        rfl
      · have hstep : lex comments .word token false (c :: cs) =
            lex comments .word (token ++ [c]) false cs := by
          simp [lex, hlex, hquote, hescape, hcomment]
        rw [hstep, hword (token ++ [c]) (by simp), hjoin]

/-- **Plain text** is split at its blanks, whether or not there can be comments. -/
theorem shlexSplit_plain {comments : Bool} {s : Text} (h : PlainText s) :
    shlexSplit comments s = some (words s) :=
  (lex_plain h).1

end MMRelay
