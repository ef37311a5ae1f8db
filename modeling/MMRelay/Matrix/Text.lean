import MMRelay.Lib.Utf8
import MMRelay.Relay.Settings

/-!
# Texts for the radio

`truncate_message`, `strip_quoted_lines` and `format_reply_message` (`matrix/replies.py`), and
the pieces of a reaction message (`matrix/events.py`).

* `truncateMessage`, **`byteLen_truncateMessage_le`**;
* `LongestPart`, **`truncateMessage_exact`**: the cut loses no character that fits;
* `formatReplyMessage`, **`byteLen_formatReplyMessage_le`**: a reply always fits.
-/

namespace MMRelay.Matrix

open MMRelay.Relay

/-- `DEFAULT_MESSAGE_TRUNCATE_BYTES`. -/
def defaultMessageTruncateBytes : ℕ := 227

/-- `truncate_message` for a limit that is not negative. -/
def truncateMessage (text : String) (maxBytes : ℕ) : String :=
  if maxBytes = 0 then "" else String.ofList (decodeIgnore ((utf8Encode text).take maxBytes))

theorem byteLen_truncateMessage_le (text : String) (n : ℕ) :
    byteLen (truncateMessage text n) ≤ n := by
  unfold truncateMessage
  split_ifs with h
  · exact Nat.zero_le n
  · rw [byteLen_ofList]
    exact (width_decodeIgnore_le _).trans (List.length_take_le n _)

/-- The longest beginning of a text that takes at most `n` bytes. -/
structure LongestPart (text : String) (n : ℕ) (part : String) : Prop where
  begins : part.toList <+: text.toList
  fits : byteLen part ≤ n
  longest : ∀ p : String, p.toList <+: text.toList → byteLen p ≤ n → p.toList <+: part.toList

theorem LongestPart.unique {text part part' : String} {n : ℕ} (h : LongestPart text n part)
    (h' : LongestPart text n part') : part = part' := by
  have hle := h'.longest part h.begins h.fits
  have hge := h.longest part' h'.begins h'.fits
  exact String.toList_injective (hle.eq_of_length_le hge.length_le)

theorem LongestPart.trans {text part part' : String} {m n : ℕ} (h : LongestPart text m part)
    (h' : LongestPart part n part') (hnm : n ≤ m) : LongestPart text n part' where
  begins := h'.begins.trans h.begins
  fits := h'.fits
  longest p hp hfits := h'.longest p (h.longest p hp (hfits.trans hnm)) hfits

theorem truncateMessage_longest (text : String) (n : ℕ) :
    LongestPart text n (truncateMessage text n) := by
  have heq : (truncateMessage text n).toList = fitting n text.toList := by
    rw [← decodeIgnore_take]
    unfold truncateMessage utf8Encode
    split_ifs with h
    · rw [h, List.take_zero]
      rfl
    · exact String.toList_ofList
  refine ⟨?_, byteLen_truncateMessage_le text n, fun p hp hfits => ?_⟩
  · rw [heq]
    exact fitting_prefix n text.toList
  · rw [heq]
    rw [byteLen_eq_width] at hfits
    exact prefix_fitting hp hfits

/-- **Truncation is exact.** It yields the longest beginning that fits, once and again, also after
a truncation to more bytes. -/
theorem truncateMessage_exact (text : String) (n : ℕ) :
    LongestPart text n (truncateMessage text n) ∧
      truncateMessage (truncateMessage text n) n = truncateMessage text n ∧
      ∀ m, n ≤ m → truncateMessage (truncateMessage text m) n = truncateMessage text n := by
  have hagain : ∀ m, n ≤ m →
      truncateMessage (truncateMessage text m) n = truncateMessage text n := by
    intro m hnm
    have htwice := (truncateMessage_longest text m).trans
      (truncateMessage_longest (truncateMessage text m) n) hnm
    exact htwice.unique (truncateMessage_longest text n)
  exact ⟨truncateMessage_longest text n, hagain n (Nat.le_refl n), hagain⟩

/-- `strip_quoted_lines`. -/
def stripQuotedLines (text : String) : String :=
  let lines := ((splitLines text).map strip).filter fun line =>
    !(['>'].isPrefixOf line.toList) && !line.isEmpty
  strip (String.intercalate " " lines)

/-- `MESSAGE_PREVIEW_LENGTH`. -/
def messagePreviewLength : ℕ := 40

/-- The stored text of a reaction: unquoted, on one line and cut. -/
def previewText (text : String) : String :=
  let flat := spaceNewlines (stripQuotedLines text)
  if messagePreviewLength < flat.length then takeChars flat messagePreviewLength ++ "..." else flat

/-! ## `re.search(r"reacted (.+?) to", body)` -/

/-- The lazy group followed by `" to"`, with what it has read in `acc`, last character first. -/
def lazyGroup : List Char → List Char → Option (List Char)
  | [], _ => none
  | c :: cs, acc =>
    if !acc.isEmpty && " to".toList.isPrefixOf (c :: cs) then some acc.reverse
    else if c = '\n' then none
    else lazyGroup cs (c :: acc)

/-- The group of the first match. -/
def reactedMatch : List Char → Option (List Char)
  | [] => none
  | c :: cs =>
    match (if "reacted ".toList.isPrefixOf (c :: cs) then lazyGroup ((c :: cs).drop 8) []
      else none) with
    | some group => some group
    | none => reactedMatch cs

/-- The emoji that an emote names. -/
def reactionEmoji (body : String) : String :=
  match reactedMatch body.toList with
  | some group => strip (String.ofList group)
  | none => "?"

/-! ## Replies -/

/-- `MESHNET_NAME_ABBREVIATION_LENGTH`. -/
def meshnetNameAbbreviationLength : ℕ := 4

/-- `SHORTNAME_FALLBACK_LENGTH`. -/
def shortnameFallbackLength : ℕ := 3

/-- The prefixes that a relay may have put before the text of a reply. -/
def prefixCandidates (senderLong senderShort meshnet shortMeshnet : String) : List String :=
  ["[" ++ senderLong ++ "/" ++ meshnet ++ "]: ", "[" ++ senderLong ++ "/" ++ shortMeshnet ++ "]: ",
    senderLong ++ "/" ++ meshnet ++ ": ", senderLong ++ "/" ++ shortMeshnet ++ ": ",
    senderShort ++ "/" ++ meshnet ++ ": ", senderShort ++ "/" ++ shortMeshnet ++ ": "]

/-- Remove the first candidate that the text starts with. -/
def removePrefix (candidates : List String) (text : String) : String :=
  match candidates.findSome? fun c => if c.isEmpty then none else dropPrefix? c text with
  | some rest => lstrip rest
  | none => text

/-- The text of a reply from a remote mesh, before it is cut. -/
def remoteReplyText (rt : Builtins) (config : Py) (fullDisplayName clean : String)
    (longname shortname meshnetName : Py) (override : Option String) : Except PyErr String := do
  let senderLong :=
    longname.orElse ((Py.str fullDisplayName).orElse (shortname.orElse (.str "???")))
  let senderShort ←
    if shortname.truthy then pure shortname
    else do
      let sliced ← senderLong.slice shortnameFallbackLength
      pure (sliced.orElse (.str "???"))
  let shortMeshnet ← meshnetName.slice meshnetNameAbbreviationLength
  let full ← getMatrixPrefix rt config senderLong senderShort meshnetName
  let short ← getMatrixPrefix rt config senderLong senderShort shortMeshnet
  let candidates := prefixCandidates (senderLong.toStr rt) (senderShort.toStr rt)
    (meshnetName.toStr rt) (shortMeshnet.toStr rt) ++ [full, short]
  let body := removePrefix candidates clean
  let body :=
    match override with
    | some t => if body.isEmpty && !t.isEmpty then strip (stripQuotedLines t) else body
    | none => body
  let meshPrefix :=
    if !short.isEmpty then short
    else if !full.isEmpty then full
    else senderShort.toStr rt ++ "/" ++ shortMeshnet.toStr rt ++ ":"
  pure (strip (meshPrefix ++ if body.isEmpty then "" else " " ++ body))

/-- `format_reply_message`. -/
def formatReplyMessage (rt : Builtins) (config : Py) (fullDisplayName text : String)
    (longname shortname meshnetName localMeshnetName : Py) (override : Option String)
    (userId : String) : Except PyErr String := do
  let base :=
    match override with
    | some t => if t.isEmpty then text else t
    | none => text
  let clean := strip (stripQuotedLines base)
  if meshnetName.truthy && localMeshnetName.truthy && !meshnetName.eq localMeshnetName then do
    let reply ← remoteReplyText rt config fullDisplayName clean longname shortname meshnetName
      override
    pure (truncateMessage reply defaultMessageTruncateBytes)
  else
    let namePrefix := getMeshtasticPrefix rt config fullDisplayName userId
    let reply := if clean.isEmpty then rstrip namePrefix else namePrefix ++ clean
    pure (truncateMessage reply defaultMessageTruncateBytes)

theorem byteLen_formatReplyMessage_le {rt : Builtins} {config : Py}
    {fullDisplayName text userId : String} {longname shortname meshnetName localMeshnetName : Py}
    {override : Option String} {reply : String}
    (h : formatReplyMessage rt config fullDisplayName text longname shortname meshnetName
      localMeshnetName override userId = .ok reply) :
    byteLen reply ≤ defaultMessageTruncateBytes := by
  unfold formatReplyMessage at h
  by_cases hremote : (meshnetName.truthy && localMeshnetName.truthy &&
      !meshnetName.eq localMeshnetName) = true
  · rw [if_pos hremote, except_bind_eq_ok] at h
    obtain ⟨r, -, hr⟩ := h
    rw [← Except.ok.inj hr]
    exact byteLen_truncateMessage_le _ _
  · rw [if_neg hremote] at h
    rw [← Except.ok.inj h]
    exact byteLen_truncateMessage_le _ _

end MMRelay.Matrix
