import MMRelay.Lib.Url

/-!
# The Matrix id of the bot

`_normalize_bot_user_id` (`matrix/prefixes.py`).

* `canonicalServer`, `localpartOf`, `normalizeBotUserId`;
* `resettle_iff`: when the server of a normalised id is read as itself;
* **`settles_iff_steady`**: which ids are normalised for good.
-/

namespace MMRelay.Matrix

/-! ## The port -/

/-- `\d`. -/
def isDecimal (c : Char) : Bool := (digitValue c).isSome

/-- What stands before `:\d+` at the very end. -/
def beforePort? (s : Text) : Option Text :=
  if (s.rtakeWhile isDecimal).isEmpty || (s.rdropWhile isDecimal).getLast? != some ':' then none
  else some (s.rdropWhile isDecimal).dropLast

/-- `$` also matches before a newline at the end. -/
def chomp (s : Text) : Text := if s.getLast? = some '\n' then s.dropLast else s

/-- `re.search(r":\d+$", s)`. -/
def hasPort (s : Text) : Bool := (beforePort? (chomp s)).isSome

/-- `re.sub(r":\d+$", "", s)`. -/
def dropPort (s : Text) : Text :=
  ((beforePort? (chomp s)).map (· ++ s.drop (chomp s).length)).getD s

/-! ## The server -/

def unbracket (value : Text) : Text :=
  if value.head? = some '[' ∧ ']' ∈ value then (value.drop 1).takeWhile (· != ']') else value

def dropSinglePort (value : Text) : Text :=
  if value.count ':' = 1 ∧ hasPort value = true then value.takeWhile (· != ':') else value

def bracketed (value : Text) : Text :=
  if ':' ∈ value ∧ value.head? ≠ some '[' then '[' :: (value ++ [']']) else value

/-- The text of a server before it is put in brackets. -/
def trimServer (value : Text) : Text := dropSinglePort (unbracket (stripChars value))

/-- `_canonical_server`. -/
def canonicalServer (value : Text) : Text :=
  if value.isEmpty then value else bracketed (trimServer value)

/-! ## The id -/

section Model

variable (u : Urls)

/-- `urlparse(url).hostname or other`. -/
def hostnameOr (url : Text) (other : Except PyErr Text) : Except PyErr Text := do
  match ← urlHostname u url with
  | some h => pure h
  | none => other

/-- `s.split("://")[-1]`, of a text `s` that ends in the second argument. -/
def afterScheme (s : Text) : Text → Text
  | ':' :: '/' :: '/' :: rest => afterScheme rest rest
  | _ :: rest => afterScheme s rest
  | [] => s

/-- The domain of the homeserver. -/
def readDomain (homeserver : Text) : Except PyErr Text :=
  hostnameOr u homeserver <| hostnameOr u ('/' :: '/' :: homeserver) <|
    pure (dropPort ((afterScheme homeserver homeserver).takeWhile (· != '/')))

/-- The server that the id itself names. -/
def readServer (rawServer : Text) : Except PyErr Text :=
  hostnameOr u ('/' :: '/' :: rawServer) (pure (dropPort rawServer))

def localpartOf (botUserId : Text) : Text :=
  (stripChars ((botUserId.dropWhile (· == '@')).takeWhile (· != ':'))).rdropWhile (· == ':')

def serverpartOf (botUserId : Text) : Text :=
  ((botUserId.dropWhile (· == '@')).dropWhile (· != ':')).drop 1

def joinId (localpart server : Text) : Option Text :=
  if server.isEmpty then none else some ('@' :: (localpart ++ ':' :: server))

/-- `_normalize_bot_user_id`. -/
def normalizeBotUserId (homeserver : Text) : Option Text → Except PyErr (Option Text)
  | none => pure none
  | some botUserId =>
    if botUserId.isEmpty then pure (some botUserId)
    else do
      let domain ← readDomain u homeserver
      if (localpartOf botUserId).isEmpty then pure none
      else if (serverpartOf botUserId).isEmpty then
        pure (joinId (localpartOf botUserId) (canonicalServer domain))
      else do
        let server ← readServer u (serverpartOf botUserId)
        pure (joinId (localpartOf botUserId) (canonicalServer server))

/-! ## What is expected of it -/

/-- `@localpart:server`. -/
def WellFormedId (t : Text) : Prop :=
  ∃ localpart server, t = '@' :: (localpart ++ ':' :: server) ∧ localpart ≠ [] ∧
    ':' ∉ localpart ∧ localpart.head? ≠ some '@'

/-- What comes out is nothing, or well formed and final. -/
def Settles (homeserver botUserId : Text) : Prop :=
  ∀ out, normalizeBotUserId u homeserver (some botUserId) = .ok out →
    out = none ∨ (botUserId = [] ∧ out = some []) ∨
      ∃ t, out = some t ∧ WellFormedId t ∧ normalizeBotUserId u homeserver (some t) = .ok (some t)

/-- The host in the id or, when it names none, in the homeserver. -/
def readHost (homeserver botUserId : Text) : Except PyErr Text := do
  let domain ← readDomain u homeserver
  if (serverpartOf botUserId).isEmpty then pure domain
  else readServer u (serverpartOf botUserId)

/-- `urlparse` reads the text as a host on its own, or as none when it has no colon. -/
structure StableHost (z : Text) : Prop where
  strip_eq : stripChars z = z
  head_ne : z.head? ≠ some '['
  plain : ':' ∉ z → urlHostname u ('/' :: '/' :: z) = .ok none ∨
    urlHostname u ('/' :: '/' :: z) = .ok (some z)
  literal : ':' ∈ z → urlHostname u ('/' :: '/' :: '[' :: (z ++ [']'])) = .ok (some z)

/-- The localpart does not begin with `@` once its blanks are gone, and the host is stable. -/
def Steady (homeserver botUserId : Text) : Prop :=
  ∀ v, readHost u homeserver botUserId = .ok v → localpartOf botUserId ≠ [] → trimServer v ≠ [] →
    (localpartOf botUserId).head? ≠ some '@' ∧ StableHost u (trimServer v)

end Model

/-! ## The text of a server -/

theorem dropPort_of_colon_free {s : Text} (h : ':' ∉ s) : dropPort s = s := by
  have hnone : beforePort? (chomp s) = none := by
    apply if_pos
    have hsub : (chomp s).rdropWhile isDecimal ⊆ s := by
      refine List.Subset.trans (List.rdropWhile_prefix _ _).subset ?_
      unfold chomp
      split_ifs
      · exact (List.dropLast_prefix s).subset
      · exact List.Subset.refl s
    have hlast : ((chomp s).rdropWhile isDecimal).getLast? ≠ some ':' :=
      fun hl => h (hsub (List.mem_of_getLast? hl))
    simp [hlast]
  rw [dropPort, hnone]
  rfl

theorem unbracket_within (v : Text) : unbracket v <:+: v := by
  unfold unbracket
  split_ifs
  · exact (List.takeWhile_prefix _).isInfix.trans (List.drop_suffix 1 v).isInfix
  · exact List.infix_refl v

theorem dropSinglePort_within (v : Text) : dropSinglePort v <:+: v := by
  unfold dropSinglePort
  split_ifs
  · exact (List.takeWhile_prefix _).isInfix
  · exact List.infix_refl v

theorem stripChars_within (v : Text) : stripChars v <:+: v :=
  (List.rdropWhile_prefix isSpace (v.dropWhile isSpace)).isInfix.trans
    (List.dropWhile_suffix isSpace).isInfix

theorem trimServer_within_stripChars (v : Text) : trimServer v <:+: stripChars v :=
  (dropSinglePort_within _).trans (unbracket_within _)

theorem trimServer_within (v : Text) : trimServer v <:+: v :=
  (trimServer_within_stripChars v).trans (stripChars_within v)

theorem canonicalServer_eq (v : Text) : canonicalServer v = bracketed (trimServer v) := by
  unfold canonicalServer
  split_ifs with h
  · rw [List.isEmpty_iff.mp h]
    rfl
  · rfl

/-- A server that still begins with a bracket never closes it. -/
theorem close_not_mem_trimServer {v : Text} (h : (trimServer v).head? = some '[') :
    ']' ∉ trimServer v := by
  have hsub : trimServer v ⊆ unbracket (stripChars v) := (dropSinglePort_within _).subset
  have hhead : (unbracket (stripChars v)).head? = some '[' := by
    unfold trimServer dropSinglePort at h
    split_ifs at h with hport
    · obtain ⟨rest, hrest⟩ := List.head?_eq_some_iff.mp h
      obtain ⟨t, ht⟩ : '[' :: rest <+: unbracket (stripChars v) :=
        hrest ▸ List.takeWhile_prefix _
      rw [← ht]
      rfl
    · exact h
  intro hclose
  have hmem := hsub hclose
  unfold unbracket at hhead hmem
  split_ifs at hhead hmem with hb
  · exact absurd (List.mem_takeWhile_imp hmem) (by simp)
  · exact hb ⟨hhead, hmem⟩

theorem trimServer_port (v : Text) :
    ¬ ((trimServer v).count ':' = 1 ∧ hasPort (trimServer v) = true) := by
  unfold trimServer
  generalize unbracket (stripChars v) = w
  rintro ⟨hcount, hport⟩
  by_cases h : w.count ':' = 1 ∧ hasPort w = true
  · rw [dropSinglePort, if_pos h] at hcount
    have hfree : ':' ∉ w.takeWhile (· != ':') :=
      fun hm => absurd (List.mem_takeWhile_imp hm) (by simp)
    rw [List.count_eq_zero_of_not_mem hfree] at hcount
    omega
  · rw [dropSinglePort, if_neg h] at hcount hport
    exact h ⟨hcount, hport⟩

theorem trimServer_eq_self {z : Text} (hstrip : stripChars z = z) (hhead : z.head? ≠ some '[')
    (hport : ¬ (z.count ':' = 1 ∧ hasPort z = true)) : trimServer z = z := by
  have hopen : unbracket z = z := if_neg fun h => hhead h.1
  rw [trimServer, hstrip, hopen, dropSinglePort, if_neg hport]

theorem stripChars_of_trimServer {z : Text} (h : trimServer z = z) : stripChars z = z := by
  have hle : z.length ≤ (stripChars z).length := by
    have := (trimServer_within_stripChars z).length_le
    rwa [h] at this
  exact (stripChars_within z).eq_of_length_le hle

theorem bracketed_of_colon_free {z : Text} (h : ':' ∉ z) : bracketed z = z :=
  if_neg fun hz => h hz.1

theorem bracketed_of_head {z : Text} (h : z.head? = some '[') : bracketed z = z :=
  if_neg fun hz => hz.2 h

theorem bracketed_literal {z : Text} (hc : ':' ∈ z) (h : z.head? ≠ some '[') :
    bracketed z = '[' :: (z ++ [']']) := if_pos ⟨hc, h⟩

theorem bracketed_ne_nil {z : Text} (h : z ≠ []) : bracketed z ≠ [] := by
  unfold bracketed
  split_ifs
  · exact List.cons_ne_nil _ _
  · exact h

/-- The brackets tell nothing apart that was not apart before. -/
theorem trimServer_of_bracketed {s z : Text} (hz : z.head? ≠ some '[')
    (h : bracketed (trimServer s) = bracketed z) : trimServer s = z := by
  by_cases hs : ':' ∈ trimServer s ∧ (trimServer s).head? ≠ some '['
  · rw [bracketed_literal hs.1 hs.2] at h
    by_cases hc : ':' ∈ z
    · rw [bracketed_literal hc hz] at h
      simpa using h
    · rw [bracketed_of_colon_free hc] at h
      exact absurd (h ▸ List.mem_cons_of_mem _ (List.mem_append_left _ hs.1)) hc
  · rw [bracketed, if_neg hs] at h
    by_cases hc : ':' ∈ z
    · rw [bracketed_literal hc hz] at h
      have hopen : (trimServer s).head? = some '[' := by rw [h]; rfl
      exact absurd (by simp [h]) (close_not_mem_trimServer hopen)
    · rwa [bracketed_of_colon_free hc] at h

/-! ## Reading a server again -/

section Again

variable {u : Urls}

theorem readServer_eq_ok {raw s : Text} :
    readServer u raw = .ok s ↔ urlHostname u ('/' :: '/' :: raw) = .ok (some s) ∨
      (urlHostname u ('/' :: '/' :: raw) = .ok none ∧ dropPort raw = s) := by
  unfold readServer hostnameOr
  cases h : urlHostname u ('/' :: '/' :: raw) with
  | error e => simp [bind, Except.bind]
  | ok host =>
    cases host with
    | none => simp [bind, Except.bind, pure, Except.pure]
    | some t => simp [bind, Except.bind, pure, Except.pure]

theorem readServer_of_stable {z : Text} (h : StableHost u z) :
    readServer u (bracketed z) = .ok z := by
  rw [readServer_eq_ok]
  by_cases hc : ':' ∈ z
  · rw [bracketed_literal hc h.head_ne]
    exact .inl (h.literal hc)
  · rw [bracketed_of_colon_free hc]
    rcases h.plain hc with hn | hs
    · exact .inr ⟨hn, dropPort_of_colon_free hc⟩
    · exact .inl hs

/-- The server of a normalised id is read as itself when its text is a stable host. -/
theorem resettle_iff (v : Text) :
    (∃ s, readServer u (bracketed (trimServer v)) = .ok s ∧
      canonicalServer s = bracketed (trimServer v)) ↔ StableHost u (trimServer v) := by
  have hport := trimServer_port v
  have hclose : (trimServer v).head? = some '[' → ']' ∉ trimServer v := close_not_mem_trimServer
  generalize trimServer v = z at hport hclose ⊢
  constructor
  · rintro ⟨s, hread, hsame⟩
    rw [canonicalServer_eq] at hsame
    rw [readServer_eq_ok] at hread
    have hhead : z.head? ≠ some '[' := by
      intro hz
      rw [bracketed_of_head hz] at hread
      obtain ⟨w, rfl⟩ := List.head?_eq_some_iff.mp hz
      have hw : ']' ∉ w := fun hm => hclose hz (List.mem_cons_of_mem _ hm)
      rcases hread with hs | ⟨hn, -⟩
      · exact urlHostname_unclosed hw _ hs
      · exact urlHostname_unclosed hw _ hn
    have htrim : trimServer s = z := trimServer_of_bracketed hhead hsame
    by_cases hc : ':' ∈ z
    · rw [bracketed_literal hc hhead] at hread
      rcases hread with hs | ⟨hn, -⟩
      · have hself : s = z := urlHostname_brackets hs (htrim ▸ trimServer_within s) hc
        subst hself
        exact ⟨stripChars_of_trimServer htrim, hhead, fun hf => absurd hc hf, fun _ => hs⟩
      · exact absurd hn urlHostname_ne_none
    · rw [bracketed_of_colon_free hc] at hread
      rcases hread with hs | ⟨hn, hd⟩
      · have hself : s = z := urlHostname_again hs (htrim ▸ trimServer_within s)
        subst hself
        exact ⟨stripChars_of_trimServer htrim, hhead, fun _ => .inr hs, fun hm => absurd hm hc⟩
      · rw [dropPort_of_colon_free hc] at hd
        subst hd
        exact ⟨stripChars_of_trimServer htrim, hhead, fun _ => .inl hn, fun hm => absurd hm hc⟩
  · intro hz
    refine ⟨z, readServer_of_stable hz, ?_⟩
    rw [canonicalServer_eq, trimServer_eq_self hz.strip_eq hz.head_ne hport]

/-! ## Reading an id again -/

theorem localpartOf_eq (id : Text) :
    localpartOf id = stripChars ((id.dropWhile (· == '@')).takeWhile (· != ':')) := by
  apply List.rdropWhile_eq_self_iff.mpr
  intro hne hlast
  have hmem := (stripChars_within _).subset (List.getLast_mem hne)
  have hcolon := List.mem_takeWhile_imp hmem
  simp only [beq_iff_eq] at hlast
  simp [hlast] at hcolon

theorem colon_not_mem_localpartOf (id : Text) : ':' ∉ localpartOf id := by
  intro hm
  rw [localpartOf_eq] at hm
  exact absurd (List.mem_takeWhile_imp ((stripChars_within _).subset hm)) (by simp)

theorem stripChars_localpartOf (id : Text) : stripChars (localpartOf id) = localpartOf id := by
  rw [localpartOf_eq, stripChars_idem]

theorem takeWhile_colon {l : Text} (h : ':' ∉ l) (s : Text) :
    (l ++ ':' :: s).takeWhile (· != ':') = l := by
  have hall : ∀ c ∈ l, (c != ':') = true := fun c hc => by
    simpa using fun he : c = ':' => h (he ▸ hc)
  rw [List.takeWhile_append_of_pos hall]
  simp

theorem dropWhile_colon {l : Text} (h : ':' ∉ l) (s : Text) :
    (l ++ ':' :: s).dropWhile (· != ':') = ':' :: s := by
  have hall : ∀ c ∈ l, (c != ':') = true := fun c hc => by
    simpa using fun he : c = ':' => h (he ▸ hc)
  rw [List.dropWhile_append_of_pos hall]
  simp

theorem dropWhile_at {l : Text} (hne : l ≠ []) (h : l.head? ≠ some '@') (s : Text) :
    ('@' :: (l ++ s)).dropWhile (· == '@') = l ++ s := by
  obtain ⟨c, cs, rfl⟩ := List.exists_cons_of_ne_nil hne
  have hc : c ≠ '@' := fun he => h (congrArg some he)
  simp [hc]

theorem localpartOf_join {l : Text} (hne : l ≠ []) (hat : l.head? ≠ some '@') (hc : ':' ∉ l)
    (hstrip : stripChars l = l) (s : Text) : localpartOf ('@' :: (l ++ ':' :: s)) = l := by
  rw [localpartOf_eq, dropWhile_at hne hat, takeWhile_colon hc, hstrip]

theorem serverpartOf_join {l : Text} (hne : l ≠ []) (hat : l.head? ≠ some '@') (hc : ':' ∉ l)
    (s : Text) : serverpartOf ('@' :: (l ++ ':' :: s)) = s := by
  rw [serverpartOf, dropWhile_at hne hat, dropWhile_colon hc]
  rfl

theorem joinId_eq_some {l s t : Text} :
    joinId l s = some t ↔ s ≠ [] ∧ '@' :: (l ++ ':' :: s) = t := by
  unfold joinId
  split_ifs with h
  · simp [List.isEmpty_iff.mp h]
  · simp [List.isEmpty_iff.not.mp h]

variable {hs id : Text}

theorem normalizeBotUserId_eq_map (hl : localpartOf id ≠ []) :
    normalizeBotUserId u hs (some id) =
      (readHost u hs id).map fun v => joinId (localpartOf id) (canonicalServer v) := by
  have hid : id ≠ [] := by
    rintro rfl
    exact hl rfl
  rw [normalizeBotUserId, readHost, if_neg (List.isEmpty_iff.not.mpr hid)]
  cases readDomain u hs with
  | error e => rfl
  | ok domain =>
    by_cases hserver : (serverpartOf id).isEmpty
    · simp [bind, Except.bind, pure, Except.pure, Except.map, hl, hserver]
    · simp only [bind, Except.bind, pure, Except.pure, List.isEmpty_iff.not.mpr hl, hserver]
      cases readServer u (serverpartOf id) with
      | error e => rfl
      | ok server => rfl

theorem normalizeBotUserId_of_nil (hid : id ≠ []) (hl : localpartOf id = []) {out : Option Text}
    (h : normalizeBotUserId u hs (some id) = .ok out) : out = none := by
  rw [normalizeBotUserId, if_neg (List.isEmpty_iff.not.mpr hid)] at h
  obtain ⟨domain, -, h⟩ := except_bind_eq_ok.mp h
  rw [if_pos (List.isEmpty_iff.mpr hl)] at h
  cases h
  rfl

theorem readHost_eq_ok {v : Text} :
    readHost u hs id = .ok v ↔ ∃ domain, readDomain u hs = .ok domain ∧
      (if (serverpartOf id).isEmpty then pure domain else readServer u (serverpartOf id)) = .ok v :=
  except_bind_eq_ok

theorem readHost_join {l s v : Text} (hne : l ≠ []) (hat : l.head? ≠ some '@') (hc : ':' ∉ l)
    (hs' : s ≠ []) :
    readHost u hs ('@' :: (l ++ ':' :: s)) = .ok v ↔
      (∃ domain, readDomain u hs = .ok domain) ∧ readServer u s = .ok v := by
  rw [readHost_eq_ok, serverpartOf_join hne hat hc]
  simp [hs']

/-- A host that was read leaves a normalised id with the same domain to fall back on. -/
theorem readDomain_of_readHost {v : Text} (h : readHost u hs id = .ok v) :
    ∃ domain, readDomain u hs = .ok domain :=
  let ⟨domain, hd, _⟩ := readHost_eq_ok.mp h
  ⟨domain, hd⟩

theorem wellFormedId_join {l s : Text} (hne : l ≠ []) (hc : ':' ∉ l) :
    WellFormedId ('@' :: (l ++ ':' :: s)) ↔ l.head? ≠ some '@' := by
  constructor
  · rintro ⟨l', s', heq, -, hc', hat⟩
    have hsplit := congrArg (List.takeWhile (· != ':')) (List.cons.inj heq).2
    rw [takeWhile_colon hc, takeWhile_colon hc'] at hsplit
    rwa [hsplit]
  · intro hat
    exact ⟨l, s, rfl, hne, hc, hat⟩

/-- A normalised id is normalised to itself when its server is read as itself. -/
theorem normalizeBotUserId_again {l v : Text} (hne : l ≠ []) (hat : l.head? ≠ some '@')
    (hc : ':' ∉ l) (hstrip : stripChars l = l) (hd : ∃ domain, readDomain u hs = .ok domain)
    (hv : trimServer v ≠ []) :
    normalizeBotUserId u hs (some ('@' :: (l ++ ':' :: canonicalServer v))) =
        .ok (some ('@' :: (l ++ ':' :: canonicalServer v))) ↔ StableHost u (trimServer v) := by
  have hserver : canonicalServer v ≠ [] := by
    rw [canonicalServer_eq]
    exact bracketed_ne_nil hv
  have hlocal := localpartOf_join hne hat hc hstrip (canonicalServer v)
  rw [normalizeBotUserId_eq_map (by rw [hlocal]; exact hne), hlocal, except_map_eq_ok]
  simp only [readHost_join hne hat hc hserver, joinId_eq_some]
  rw [← resettle_iff, ← canonicalServer_eq]
  constructor
  · rintro ⟨w, ⟨-, hw⟩, -, heq⟩
    have hsame := List.append_cancel_left (List.cons.inj heq).2
    exact ⟨w, hw, (List.cons.inj hsame).2⟩
  · rintro ⟨w, hw, hsame⟩
    exact ⟨w, ⟨hd, hw⟩, hsame ▸ hserver, by rw [hsame]⟩

/-- **An id is normalised for good, and well formed, exactly when it is steady.** -/
theorem settles_iff_steady (u : Urls) (hs id : Text) : Settles u hs id ↔ Steady u hs id := by
  constructor
  · intro hset v hv hl hz
    have hserver : canonicalServer v ≠ [] := by
      rw [canonicalServer_eq]
      exact bracketed_ne_nil hz
    have hout : normalizeBotUserId u hs (some id) =
        .ok (some ('@' :: (localpartOf id ++ ':' :: canonicalServer v))) := by
      rw [normalizeBotUserId_eq_map hl, hv, Except.map, joinId_eq_some.mpr ⟨hserver, rfl⟩]
    have hc := colon_not_mem_localpartOf id
    rcases hset _ hout with hnone | ⟨rfl, -⟩ | ⟨t, ht, hwf, hagain⟩
    · cases hnone
    · exact absurd rfl hl
    · cases ht
      have hat := (wellFormedId_join hl hc).mp hwf
      exact ⟨hat, (normalizeBotUserId_again hl hat hc (stripChars_localpartOf id)
        (readDomain_of_readHost hv) hz).mp hagain⟩
  · intro hsteady out hout
    by_cases hid : id = []
    · subst hid
      exact .inr (.inl ⟨rfl, (Except.ok.inj hout).symm⟩)
    by_cases hl : localpartOf id = []
    · exact .inl (normalizeBotUserId_of_nil hid hl hout)
    rw [normalizeBotUserId_eq_map hl, except_map_eq_ok] at hout
    obtain ⟨v, hv, rfl⟩ := hout
    by_cases hz : trimServer v = []
    · have hempty : canonicalServer v = [] := by
        rw [canonicalServer_eq, hz]
        rfl
      rw [hempty]
      exact .inl rfl
    · obtain ⟨hat, hstable⟩ := hsteady v hv hl hz
      have hserver : canonicalServer v ≠ [] := by
        rw [canonicalServer_eq]
        exact bracketed_ne_nil hz
      have hc := colon_not_mem_localpartOf id
      have hwf := (wellFormedId_join (s := canonicalServer v) hl hc).mpr hat
      refine .inr (.inr ⟨_, joinId_eq_some.mpr ⟨hserver, rfl⟩, hwf, ?_⟩)
      exact (normalizeBotUserId_again hl hat hc (stripChars_localpartOf id)
        (readDomain_of_readHost hv) hz).mpr hstable

end Again

/-! ## An id that is not -/

/-- Unicode as far as ASCII, with one IP literal. -/
def asciiUrls : Urls where
  lower s := s.map Char.toLower
  checkBracketedHost h := h == [':', ':', '1']
  checkNetloc _ := true
  lower_ne_nil s h := by simpa using h
  lower_again s t h := by
    have hself : ∀ c ∈ t, c.toLower = c := by
      intro c hc
      obtain ⟨d, -, rfl⟩ := List.mem_map.mp (h.subset hc)
      exact Char.toLower_eq_of_not_isUpper (by simp)
    exact (List.map_congr_left hself).trans t.map_id
  mem_of_lower s c hc h := by
    obtain ⟨d, hd, rfl⟩ := List.mem_map.mp h
    by_cases hup : d.isUpper = true
    · have hlow : d.toLower.isLower = true := by
        rw [Char.isLower_toLower_eq_isAlpha, Char.isAlpha, hup, Bool.true_or]
      have hmarks : ∀ e ∈ urlMarks, e.isLower = false := by simp [urlMarks, Char.isLower]
      rw [hmarks _ hc] at hlow
      cases hlow
    · rwa [Char.toLower_eq_of_not_isUpper hup]
  bracketed_nil := rfl

/-- The id is read past its blank only after its `@` was looked for. -/
theorem not_settles_blank :
    ¬ Settles asciiUrls "https://example.org".toList " @bot:example.org".toList := by
  intro h
  have hrun : normalizeBotUserId asciiUrls "https://example.org".toList
      (some " @bot:example.org".toList) =
        .ok (some ('@' :: ("@bot".toList ++ ':' :: "example.org".toList))) := by
    decide +kernel
  rcases h _ hrun with hnone | ⟨hid, -⟩ | ⟨t, ht, hwf, -⟩
  · cases hnone
  · cases hid
  · cases ht
    exact (wellFormedId_join (by decide) (by decide)).mp hwf rfl

end MMRelay.Matrix
