import MMRelay.Commands.Bang

/-!
# Commands that mention the bot

`_parse_matrix_message_command` and what it reads from a message (`matrix/command_bridge.py`).
`html.unescape` and `urllib.parse.unquote` are parameters.

* `extractAnchorHref`, `extractMatrixMxidFromHref`, `normalizeFormattedBody`: formatted bodies;
* `extractCandidateBodies`, `consumeMxidMentionPrefix`, `consumeDisplayNamePrefix`;
* `parseMatrixMessageCommand`, `botCommand`;
* `parse_required`, `parse_optional`: the two modes over the candidate bodies;
* **`monotone_iff`**: when a command that is accepted with a mention is accepted without the
  requirement.
-/

namespace MMRelay.Commands

open Regex

/-- The library functions that decode mark-up and links. -/
structure Markup where
  /-- `html.unescape`. -/
  unescape : Text → Text
  /-- `urllib.parse.unquote`. -/
  unquote : Text → Text

/-- A message: a text, or an event with its `body` and its `source`. -/
inductive Message
  | text (s : Text)
  | event (body source : Py)

variable (u : Unicode) (m : Markup)

/-! ## Formatted bodies -/

/-- An attribute of a tag with its value in double quotes, single quotes or none. -/
def attrPattern : Regex :=
  .seq (.alt atStart (.one isSpace))
    (.seq (.group "name" (some' fun c => !isSpace c && c != '=' && c != '/' && c != '>'))
    (.seq (.many isSpace) (.seq (.one (· == '=')) (.seq (.many isSpace)
      (.alt (.seq (.one (· == '"')) (.seq (.group "dq" (.many (· != '"'))) (.one (· == '"'))))
      (.alt (.seq (.one (· == '\'')) (.seq (.group "sq" (.many (· != '\''))) (.one (· == '\''))))
        (.group "uq" (some' fun c => !isSpace c && c != '>'))))))))

/-- `_extract_anchor_href`. -/
def extractAnchorHref (anchorAttrs : Text) : Option Text :=
  let values := (finditer attrPattern anchorAttrs).filterMap fun found =>
    if u.casefold ((found.group? "name").getD []) = "href".toList then
      ((found.group? "dq").or (found.group? "sq")).or (found.group? "uq")
    else none
  match values with
  | [] => none
  | value :: _ => if stripChars value = [] then none else some (stripChars value)

/-- `s.lstrip("/")`. -/
def lstripSlashes (t : Text) : Text := t.dropWhile (· == '/')

/-- `t if t.startswith("@") else None`. -/
def ifMxid (t : Text) : Option Text := if t.head? = some '@' then some t else none

/-- `s.split("?", maxsplit=1)[0]`. -/
def beforeQuery (t : Text) : Text := t.takeWhile (· != '?')

/-- `matrix\.to/#/(?P<target>[^?#]+)`. -/
def matrixToPattern : Regex :=
  .seq (literal u.same "matrix.to/#/".toList)
    (.group "target" (some' fun c => c != '?' && c != '#'))

/-- `_extract_matrix_mxid_from_href`. -/
def extractMatrixMxidFromHref (href : Text) : Option Text :=
  let decoded := stripChars (m.unquote (m.unescape href))
  if decoded = [] then none
  else
    match (matrixToPattern u).search? decoded with
    | some found => ifMxid (lstripSlashes (m.unquote ((found.group? "target").getD [])))
    | none =>
      if "matrix:".toList.isPrefixOf decoded then
        let target := lstripSlashes (m.unquote (decoded.drop "matrix:".length))
        let target :=
          if "u/".toList.isPrefixOf target then
            let rest := target.drop 2
            if rest ≠ [] ∧ rest.head? ≠ some '@' then '@' :: rest else rest
          else target
        ifMxid (beforeQuery target)
      else if decoded.head? = some '@' then some (beforeQuery decoded)
      else none

/-- `<mx-reply>.*?</mx-reply>`. -/
def replyPattern : Regex :=
  .seq (literal u.same "<mx-reply>".toList)
    (.seq (.few fun _ => true) (literal u.same "</mx-reply>".toList))

/-- `<a\b(?P<attrs>[^>]*)>.*?</a>`. -/
def anchorPattern : Regex :=
  .seq (literal u.same "<a".toList) (.seq (boundary u.word)
    (.seq (.group "attrs" (.many (· != '>'))) (.seq (.one (· == '>'))
      (.seq (.few fun _ => true) (literal u.same "</a>".toList)))))

/-- `<br\s*/?>`. -/
def breakPattern : Regex :=
  .seq (literal u.same "<br".toList)
    (.seq (.many isSpace) (.seq (.opt (.one (· == '/'))) (.one (· == '>'))))

/-- `<[^>]+>`. -/
def tagPattern : Regex := .seq (.one (· == '<')) (.seq (some' (· != '>')) (.one (· == '>')))

/-- `_replace_anchor`: a link to the bot becomes its MXID, any other link a blank. -/
def replaceAnchor (botMxid : Option Text) (found : Cursor) : Text :=
  match botMxid with
  | none => [' ']
  | some mxid =>
    match extractAnchorHref u ((found.group? "attrs").getD []) with
    | none => [' ']
    | some href => if extractMatrixMxidFromHref u m href = some mxid then mxid else [' ']

/-- `_normalize_formatted_body_for_command_detection`. -/
def normalizeFormattedBody (formattedBody : Py) (botMxid : Option Text) : Text :=
  match formattedBody with
  | .str s =>
    if s = "" then []
    else
      let normalized := (replyPattern u).sub (fun _ => [' ']) s.toList
      let normalized := (anchorPattern u).sub (replaceAnchor u m botMxid) normalized
      let normalized := (breakPattern u).sub (fun _ => [' ']) normalized
      let normalized := tagPattern.sub (fun _ => [' ']) normalized
      let normalized := m.unescape normalized
      stripChars ((some' isSpace).sub (fun _ => [' ']) normalized)
  | _ => []

/-! ## Candidate bodies and mentions -/

/-- `_extract_candidate_bodies`. -/
def extractCandidateBodies (message : Message) (botMxid : Option Text) : List Text :=
  match message with
  | .text s => if stripChars s = [] then [] else [stripChars s]
  | .event body source =>
    let plain :=
      match body with
      | .str s => if stripChars s.toList = [] then [] else [stripChars s.toList]
      | _ => []
    let content := if source.isDict then (source.key? "content").getD (.dict []) else .dict []
    let formatted :=
      if content.isDict then (content.key? "formatted_body").getD (.str "") else .str ""
    let normalized := normalizeFormattedBody u m formatted botMxid
    if !normalized.isEmpty && !plain.contains normalized then plain ++ [normalized] else plain

/-- `_resolve_bot_mxid` and `_resolve_bot_display_name`: the text of what is configured. -/
def resolveName (rt : Builtins) (configured : Py) : Option Text :=
  if configured.truthy then
    let name := stripChars (configured.toStr rt).toList
    if name = [] then none else some name
  else none

/-- The text after a mention: after blanks, or after a colon and blanks. -/
def afterMention (remainder : Text) : Option Text :=
  match remainder with
  | [] => none
  | c :: rest =>
    if isSpace c then some (remainder.dropWhile isSpace)
    else if c = ':' then
      if rest.head?.any isSpace then some (rest.dropWhile isSpace) else none
    else none

/-- `_consume_mxid_mention_prefix`. -/
def consumeMxidMentionPrefix (message botMxid : Text) : Option Text :=
  if botMxid.isPrefixOf message then afterMention (message.drop botMxid.length) else none

/-- `_consume_display_name_prefix`. -/
def consumeDisplayNamePrefix (message displayName : Text) : Option Text :=
  if displayName = [] then none
  else if (u.lower displayName).isPrefixOf (u.lower message) then
    afterMention (message.drop displayName.length)
  else none

/-- What the bot is called. -/
structure Bot where
  userId : Py
  userName : Py

/-- `_parse_matrix_message_command`. -/
def parseMatrixMessageCommand (rt : Builtins) (bot : Bot) (message : Message)
    (commands : List Py) (requireMention : Bool) : Option ParsedMatrixCommand :=
  let commandLookup := buildCommandLookup u commands
  if commandLookup = [] then none
  else
    let botMxid := resolveName rt bot.userId
    if requireMention && botMxid.isNone then none
    else
      let botDisplayName := if requireMention then resolveName rt bot.userName else none
      let candidateBodies := extractCandidateBodies u m message botMxid
      if candidateBodies = [] then none
      else if requireMention then
        match botMxid with
        | none => none
        | some mxid =>
          let byMxid := candidateBodies.findSome? fun body =>
            (consumeMxidMentionPrefix body mxid).bind (matchBangCommand u · commandLookup)
          match byMxid, botDisplayName with
          | some parsed, _ => some parsed
          | none, none => none
          | none, some displayName => candidateBodies.findSome? fun body =>
            (consumeDisplayNamePrefix u body displayName).bind (matchBangCommand u · commandLookup)
      else
        candidateBodies.findSome? fun body =>
          match matchBangCommand u body commandLookup with
          | some parsed => some parsed
          | none =>
            match botMxid with
            | none => none
            | some mxid =>
              (consumeMxidMentionPrefix body mxid).bind (matchBangCommand u · commandLookup)

/-- `bot_command`. -/
def botCommand (rt : Builtins) (bot : Bot) (command : Text) (event : Message)
    (requireMention : Bool) : Bool :=
  command ≠ [] &&
    (parseMatrixMessageCommand u m rt bot event [.str (String.ofList command)]
      requireMention).isSome

/-! ## The two modes -/

variable {u m} {rt : Builtins} {bot : Bot} {message : Message} {commands : List Py}

/-- The bodies that the parser tries. -/
def bodies (u : Unicode) (m : Markup) (rt : Builtins) (bot : Bot) (message : Message) :
    List Text := extractCandidateBodies u m message (resolveName rt bot.userId)

/-- The command of a body that begins with it. -/
def bare (u : Unicode) (commands : List Py) (body : Text) : Option ParsedMatrixCommand :=
  matchBangCommand u body (buildCommandLookup u commands)

/-- The command of a body after the MXID of the bot. -/
def mentioned (u : Unicode) (rt : Builtins) (bot : Bot) (commands : List Py) (body : Text) :
    Option ParsedMatrixCommand :=
  (resolveName rt bot.userId).bind fun mxid =>
    (consumeMxidMentionPrefix body mxid).bind (bare u commands)

/-- The command of a body after the display name of the bot. -/
def named (u : Unicode) (rt : Builtins) (bot : Bot) (commands : List Py) (body : Text) :
    Option ParsedMatrixCommand :=
  (resolveName rt bot.userName).bind fun displayName =>
    (consumeDisplayNamePrefix u body displayName).bind (bare u commands)

/-- With the requirement the MXID is looked for in every body before the display name is. -/
theorem parse_required {mxid : Text} (hcommands : buildCommandLookup u commands ≠ [])
    (hmxid : resolveName rt bot.userId = some mxid) :
    parseMatrixMessageCommand u m rt bot message commands true =
      ((bodies u m rt bot message).findSome? (mentioned u rt bot commands)).or
        ((bodies u m rt bot message).findSome? (named u rt bot commands)) := by
  have hmentioned : (fun body => (consumeMxidMentionPrefix body mxid).bind
      (matchBangCommand u · (buildCommandLookup u commands))) = mentioned u rt bot commands := by
    funext body
    rw [mentioned, hmxid]
    rfl
  unfold parseMatrixMessageCommand
  simp only [hcommands, if_false, hmxid, Option.isNone_some, Bool.and_false, Bool.false_eq_true,
    if_true, hmentioned]
  by_cases hnil : bodies u m rt bot message = []
  · have hnil' := hnil
    rw [bodies, hmxid] at hnil'
    rw [if_pos hnil', hnil]
    rfl
  · have hne := hnil
    rw [bodies, hmxid] at hne
    rw [if_neg hne, bodies, hmxid]
    cases hfirst : (extractCandidateBodies u m message (some mxid)).findSome?
        (mentioned u rt bot commands) with
    | some parsed => rfl
    | none =>
      cases hname : resolveName rt bot.userName with
      | none =>
        have hnamed : named u rt bot commands = fun _ => none := by
          funext body
          rw [named, hname]
          rfl
        rw [hnamed, List.findSome?_eq_none_iff.2 fun _ _ => rfl]
        rfl
      | some displayName =>
        have hnamed : named u rt bot commands = fun body =>
            (consumeDisplayNamePrefix u body displayName).bind
              (matchBangCommand u · (buildCommandLookup u commands)) := by
          funext body
          rw [named, hname]
          rfl
        rw [hnamed]
        rfl

/-- Without it every body is tried as a command and then after the MXID. -/
theorem parse_optional (hcommands : buildCommandLookup u commands ≠ []) :
    parseMatrixMessageCommand u m rt bot message commands false =
      (bodies u m rt bot message).findSome? fun body =>
        (bare u commands body).or (mentioned u rt bot commands body) := by
  unfold parseMatrixMessageCommand
  simp only [hcommands, if_false, Bool.false_and, Bool.false_eq_true]
  have hbodies : extractCandidateBodies u m message (resolveName rt bot.userId) =
      bodies u m rt bot message := rfl
  rw [hbodies]
  by_cases hnil : bodies u m rt bot message = []
  · rw [if_pos hnil, hnil]
    rfl
  · rw [if_neg hnil]
    congr 1
    funext body
    rw [bare, mentioned]
    cases matchBangCommand u body (buildCommandLookup u commands) with
    | some parsed => rfl
    | none =>
      cases resolveName rt bot.userId <;> rfl

section Tiers

variable {α β : Type} {f g : α → Option β}

theorem findSome?_or_of_none {l : List α} (h : ∀ x ∈ l, f x = none) :
    (l.findSome? fun x => (g x).or (f x)) = l.findSome? g := by
  induction l with
  | nil => rfl
  | cons a l ih =>
    have hl : ∀ x ∈ l, f x = none := fun x hx => h x (List.mem_cons_of_mem _ hx)
    rw [List.findSome?_cons, List.findSome?_cons, h a List.mem_cons_self, Option.or_none, ih hl]

/-- Two tests on each element, the second of which first succeeds at a place. -/
theorem findSome?_or_of_first {before after : List α} {a : α} {b : β}
    (hbefore : ∀ x ∈ before, f x = none) (ha : f a = some b) :
    ((before ++ a :: after).findSome? fun x => (g x).or (f x)) =
      ((before ++ [a]).findSome? g).or (some b) := by
  rw [List.findSome?_append, List.findSome?_append, List.findSome?_cons, ha,
    findSome?_or_of_none hbefore]
  cases before.findSome? g with
  | some b' => rfl
  | none =>
    cases hg : g a with
    | some b' => simp [hg]
    | none => simp [hg]

/-- What `f` finds first, else what `h` finds, is found by trying `g` before `f` everywhere. -/
theorem tiers_iff {h : α → Option β} {l : List α} :
    (∀ b, (l.findSome? f).or (l.findSome? h) = some b →
      (l.findSome? fun x => (g x).or (f x)) = some b) ↔
    (∀ before a after b, l = before ++ a :: after → (∀ x ∈ before, f x = none) → f a = some b →
      ∀ first, (before ++ [a]).findSome? g = some first → first = b) ∧
    ((∀ x ∈ l, f x = none) → ∀ b, l.findSome? h = some b → l.findSome? g = some b) := by
  constructor
  · intro hall
    constructor
    · intro before a after b hl hbefore ha first hfirst
      have hfound : l.findSome? f = some b :=
        List.findSome?_eq_some_iff.2 ⟨before, a, after, hl, ha, hbefore⟩
      have := hall b (by rw [hfound]; rfl)
      rw [hl, findSome?_or_of_first hbefore ha, hfirst, Option.some_or] at this
      exact Option.some.inj this
    · intro hnone b hb
      have := hall b (by rw [List.findSome?_eq_none_iff.2 hnone, hb]; rfl)
      rwa [findSome?_or_of_none hnone] at this
  · rintro ⟨hfirst, hlast⟩ b hb
    cases hfound : l.findSome? f with
    | some b' =>
      rw [hfound, Option.some_or, Option.some.injEq] at hb
      subst hb
      obtain ⟨before, a, after, rfl, ha, hbefore⟩ := List.findSome?_eq_some_iff.1 hfound
      rw [findSome?_or_of_first hbefore ha]
      cases hg : (before ++ [a]).findSome? g with
      | none => rfl
      | some first =>
        rw [hfirst before a after b' rfl hbefore ha first hg]
        rfl
    | none =>
      have hnone := List.findSome?_eq_none_iff.1 hfound
      rw [hfound, Option.none_or] at hb
      rw [findSome?_or_of_none hnone]
      exact hlast hnone b hb

end Tiers

/-- No bare command comes before a mention of the bot, and what is accepted for the display name
only is the first bare command. -/
def BareAgrees (u : Unicode) (m : Markup) (rt : Builtins) (bot : Bot) (message : Message)
    (commands : List Py) : Prop :=
  (∀ before body after parsed, bodies u m rt bot message = before ++ body :: after →
    (∀ other ∈ before, mentioned u rt bot commands other = none) →
    mentioned u rt bot commands body = some parsed →
    ∀ first, (before ++ [body]).findSome? (bare u commands) = some first → first = parsed) ∧
  ((∀ body ∈ bodies u m rt bot message, mentioned u rt bot commands body = none) →
    ∀ parsed, (bodies u m rt bot message).findSome? (named u rt bot commands) = some parsed →
      (bodies u m rt bot message).findSome? (bare u commands) = some parsed)

/-- **Monotonicity.** What is accepted with the requirement is accepted without it, with the same
command and arguments, if and only if the bare commands of the message agree. -/
theorem monotone_iff (u : Unicode) (m : Markup) (rt : Builtins) (bot : Bot) (message : Message)
    (commands : List Py) :
    (∀ parsed, parseMatrixMessageCommand u m rt bot message commands true = some parsed →
      parseMatrixMessageCommand u m rt bot message commands false = some parsed) ↔
    (registered u commands ≠ [] → (resolveName rt bot.userId).isSome = true →
      BareAgrees u m rt bot message commands) := by
  by_cases hcommands : buildCommandLookup u commands = []
  · have hnone : parseMatrixMessageCommand u m rt bot message commands true = none := by
      unfold parseMatrixMessageCommand
      simp only [hcommands, if_true]
    rw [hnone]
    refine iff_of_true (by simp) ?_
    intro hregistered
    exact absurd (by rw [registered, hcommands, List.map_nil]) hregistered
  · have hregistered : registered u commands ≠ [] := by
      rwa [registered, Ne, List.map_eq_nil_iff]
    cases hmxid : resolveName rt bot.userId with
    | none =>
      have hnone : parseMatrixMessageCommand u m rt bot message commands true = none := by
        unfold parseMatrixMessageCommand
        simp only [hcommands, hmxid, if_false, Option.isNone_none, Bool.and_true, if_true]
      rw [hnone]
      exact iff_of_true (by simp) (by simp)
    | some mxid =>
      rw [parse_required hcommands hmxid, parse_optional hcommands, tiers_iff]
      constructor
      · intro h _ _
        exact h
      · intro h
        exact h hregistered rfl

/-- The run-time functions where nothing is formatted. -/
def plainBuiltins : Builtins := ⟨fun _ => "", fun _ => .error .valueError, fun _ _ => none⟩

/-- A command after the display name is accepted only where a mention is required. -/
theorem displayName_required :
    ¬ ∀ (u : Unicode) (m : Markup) (rt : Builtins) (bot : Bot) (message : Message)
      (commands : List Py) (parsed : ParsedMatrixCommand),
      parseMatrixMessageCommand u m rt bot message commands true = some parsed →
        parseMatrixMessageCommand u m rt bot message commands false = some parsed := by
  intro h
  have hfalse := h asciiTables ⟨id, id⟩ plainBuiltins
    ⟨.str "@bot:example.org", .str "Bot"⟩ (.text "Bot !help".toList) [.str "help"]
    ⟨"help".toList, []⟩ (by decide +kernel)
  exact absurd hfalse (by decide +kernel)

end MMRelay.Commands
