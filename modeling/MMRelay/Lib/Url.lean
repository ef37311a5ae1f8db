import MMRelay.Lib.PyValue
import MMRelay.Lib.TextFile

/-!
# The host of a URL

`urlparse(url).hostname` of Python's `urllib.parse`. The lower case of a text, what NFKC makes of
a network location and which texts are IP literals come from Unicode and `ipaddress` (`Urls`).

* `urlScheme`, `urlHostname`, `rawHost`, `Urls.lowerHost`;
* **`Urls.lowerHost_eq_of_within`**: a host found again inside its lower case is in lower case;
* **`urlHostname_slashes`**: the host after `//` is a part of the text there;
* **`urlHostname_brackets`**: an IP literal is found whole between its brackets.
-/

namespace MMRelay

/-- The characters that `urllib.parse` looks for, or removes. -/
def urlMarks : Text := [':', '/', '?', '#', '@', '[', ']', '%', '\t', '\r', '\n']

/-- What `urllib.parse` takes from `str.lower`, `unicodedata` and `ipaddress`. -/
structure Urls where
  lower : Text → Text
  /-- `_check_bracketed_host` lets the text pass. -/
  checkBracketedHost : Text → Bool
  /-- `_checknetloc` lets the text pass. -/
  checkNetloc : Text → Bool
  lower_ne_nil : ∀ s, s ≠ [] → lower s ≠ []
  lower_again : ∀ s t, t <:+: lower s → lower t = t
  mem_of_lower : ∀ s c, c ∈ urlMarks → c ∈ lower s → c ∈ s
  bracketed_nil : checkBracketedHost [] = false

/-! ## `urlsplit` -/

/-- `_UNSAFE_URL_BYTES_TO_REMOVE`. -/
def isUnsafeUrlByte (c : Char) : Bool := c == '\t' || c == '\r' || c == '\n'

def safeUrl (url : Text) : Text := url.filter fun c => !isUnsafeUrlByte c

/-- `url` without blanks at its start and without the bytes that are removed anywhere. -/
def cleanUrl (url : Text) : Text := safeUrl (url.dropWhile fun c => decide (c.toNat ≤ 0x20))

/-- `scheme_chars`. -/
def isSchemeChar (c : Char) : Bool := c.isAlphanum || c == '+' || c == '-' || c == '.'

def dropScheme (url : Text) : Text :=
  match url.dropWhile (· != ':') with
  | [] => url
  | _ :: rest =>
    if ((url.head?.map Char.isAlpha).getD false) && (url.takeWhile (· != ':')).all isSchemeChar
    then rest else url

/-- `urlparse(url).scheme`. -/
def urlScheme (url : Text) : Text :=
  match (cleanUrl url).dropWhile (· != ':') with
  | [] => []
  | _ :: _ =>
    let scheme := (cleanUrl url).takeWhile (· != ':')
    if (((cleanUrl url).head?.map Char.isAlpha).getD false) && scheme.all isSchemeChar
    then scheme.map Char.toLower else []

/-- `_splitnetloc`: up to the first of `/?#`. -/
def splitNetloc (rest : Text) : Text :=
  rest.takeWhile fun c => !(c == '/' || c == '?' || c == '#')

def netlocOf : Text → Text
  | '/' :: '/' :: rest => splitNetloc rest
  | _ => []

/-- The network location after its last `@`. -/
def hostinfo (netloc : Text) : Text := netloc.rtakeWhile (· != '@')

/-- `_hostinfo[0]`: between the brackets, or up to the first colon. -/
def rawHost (netloc : Text) : Text :=
  match (hostinfo netloc).dropWhile (· != '[') with
  | _ :: bracketed => bracketed.takeWhile (· != ']')
  | [] => (hostinfo netloc).takeWhile (· != ':')

namespace Urls

variable (u : Urls)

/-- `_check_bracketed_netloc`. -/
def checkBracketedNetloc (netloc : Text) : Bool :=
  (match (hostinfo netloc).dropWhile (· != '[') with
  | _ :: bracketed =>
    (hostinfo netloc).head? == some '[' &&
      (match (bracketed.dropWhile (· != ']')).drop 1 with
      | [] => true
      | c :: _ => c == ':')
  | [] => true) && u.checkBracketedHost (rawHost netloc)

/-- The lower case of a host, its zone apart. -/
def lowerHost (host : Text) : Text :=
  u.lower (host.takeWhile (· != '%')) ++ host.dropWhile (· != '%')

end Urls

/-- `urlsplit` gets as far as a network location. -/
def urlNetloc (u : Urls) (url : Text) : Except PyErr Text :=
  let netloc := netlocOf (dropScheme (cleanUrl url))
  if netloc.contains '[' != netloc.contains ']' then .error .valueError
  else if netloc.contains '[' && !u.checkBracketedNetloc netloc then .error .valueError
  else if !netloc.isEmpty && !u.checkNetloc netloc then .error .valueError
  else .ok netloc

/-- `urlparse(url).hostname`. -/
def urlHostname (u : Urls) (url : Text) : Except PyErr (Option Text) := do
  let netloc ← urlNetloc u url
  if (rawHost netloc).isEmpty then pure none else pure (some (u.lowerHost (rawHost netloc)))

/-! ## Parts of a text -/

section Parts

variable {α : Type}

theorem within_tail {r l : List α} {a b : α} (h : a :: r <:+: b :: l) : r <:+: l := by
  rcases List.infix_cons_iff.mp h with hp | hi
  · obtain ⟨-, hp'⟩ := List.cons_prefix_cons.mp hp
    exact hp'.isInfix
  · exact (List.suffix_cons a r).isInfix.trans hi

theorem within_init {r l : List α} {x : α} (hx : x ∉ r) (h : r <:+: l ++ [x]) : r <:+: l := by
  obtain ⟨p, q, hpq⟩ := h
  rcases List.eq_nil_or_concat q with rfl | ⟨q', y, rfl⟩
  · rcases List.eq_nil_or_concat r with rfl | ⟨r', y, rfl⟩
    · exact List.nil_infix
    · have hy : y = x := by
        have := congrArg List.getLast? hpq
        simpa using this
      exact absurd (by simp [hy]) hx
  · have hinit : p ++ r ++ q' = l := by
      have := congrArg List.dropLast hpq
      simpa [← List.append_assoc] using this
    exact ⟨p, q', hinit⟩

end Parts

/-! ## The lower case of a host -/

namespace Urls

variable (u : Urls)

theorem mem_of_lowerHost {c : Char} (hc : c ∈ urlMarks) {h : Text} (hl : c ∈ u.lowerHost h) :
    c ∈ h := by
  rcases List.mem_append.mp hl with hl | hl
  · exact List.takeWhile_subset _ (u.mem_of_lower _ c hc hl)
  · exact (List.dropWhile_suffix _).subset hl

/-- A host that is part of its own lower case is in lower case. -/
theorem lowerHost_eq_of_within {h : Text} (hw : h <:+: u.lowerHost h) : u.lowerHost h = h := by
  obtain ⟨a, z, ha, hz⟩ : ∃ a z, h.takeWhile (· != '%') = a ∧ h.dropWhile (· != '%') = z :=
    ⟨_, _, rfl, rfl⟩
  have hsplit : a ++ z = h := by rw [← ha, ← hz, List.takeWhile_append_dropWhile]
  have hlow : u.lowerHost h = u.lower a ++ z := by rw [lowerHost, ha, hz]
  rw [hlow] at hw ⊢
  suffices hsame : u.lower a = a by rw [hsame, hsplit]
  obtain ⟨p, q, hpq⟩ := hw
  rw [← hsplit, ← List.append_assoc, List.append_assoc, List.append_eq_append_iff] at hpq
  apply u.lower_again a
  rcases hpq with ⟨l, hl, -⟩ | ⟨l, hl, hrest⟩
  · exact ⟨p, l, hl.symm⟩
  · -- the zone is no longer than itself, so nothing of `a` lies in it
    have hnil : l = [] := by
      have hlen := congrArg List.length hrest
      simp only [List.length_append] at hlen
      exact List.eq_nil_of_length_eq_zero (by omega)
    rw [hnil, List.append_nil] at hl
    exact ⟨p, [], by rw [List.append_nil, hl]⟩

end Urls

/-! ## The host after two slashes -/

theorem netlocOf_slashes (s : Text) :
    netlocOf (dropScheme (cleanUrl ('/' :: '/' :: s))) = splitNetloc (safeUrl s) := by
  have hclean : cleanUrl ('/' :: '/' :: s) = '/' :: '/' :: safeUrl s := by
    simp [cleanUrl, safeUrl, isUnsafeUrlByte]
  have hscheme : dropScheme ('/' :: '/' :: safeUrl s) = '/' :: '/' :: safeUrl s := by
    unfold dropScheme
    cases List.dropWhile (· != ':') ('/' :: '/' :: safeUrl s) with
    | nil => rfl
    | cons c rest => exact if_neg (by simp)
  rw [hclean, hscheme, netlocOf]

theorem splitNetloc_within (s : Text) : splitNetloc s <:+: s :=
  (List.takeWhile_prefix _).isInfix

theorem hostinfo_within (netloc : Text) : hostinfo netloc <:+: netloc :=
  (List.rtakeWhile_suffix _ _).isInfix

theorem rawHost_within (netloc : Text) : rawHost netloc <:+: netloc := by
  unfold rawHost
  cases hd : (hostinfo netloc).dropWhile (· != '[') with
  | nil => exact (List.takeWhile_prefix _).isInfix.trans (hostinfo_within netloc)
  | cons c bracketed =>
    have hb : c :: bracketed <:+: netloc :=
      hd ▸ (List.dropWhile_suffix _).isInfix.trans (hostinfo_within netloc)
    exact (List.takeWhile_prefix _).isInfix.trans ((List.suffix_cons c _).isInfix.trans hb)

/-- A host with a colon stands in brackets. -/
theorem rawHost_of_colon {netloc : Text} (hc : ':' ∈ rawHost netloc) :
    '[' :: rawHost netloc <:+: netloc ∧ ']' ∉ rawHost netloc := by
  unfold rawHost at hc ⊢
  have hd := List.head?_dropWhile_not (· != '[') (hostinfo netloc)
  cases hs : (hostinfo netloc).dropWhile (· != '[') with
  | nil =>
    rw [hs] at hc
    exact absurd (List.mem_takeWhile_imp hc) (by simp)
  | cons c bracketed =>
    have hopen : c = '[' := by simpa [hs] using hd
    have hb : '[' :: bracketed <:+: netloc :=
      hopen ▸ hs ▸ (List.dropWhile_suffix _).isInfix.trans (hostinfo_within netloc)
    constructor
    · have hp : '[' :: bracketed.takeWhile (· != ']') <+: '[' :: bracketed :=
        (List.prefix_cons_inj '[').mpr (List.takeWhile_prefix _)
      exact hp.isInfix.trans hb
    · intro hm
      exact absurd (List.mem_takeWhile_imp hm) (by simp)

theorem urlNetloc_ok {u : Urls} {url netloc : Text} (h : urlNetloc u url = .ok netloc) :
    netloc = netlocOf (dropScheme (cleanUrl url)) ∧
      ('[' ∈ netloc ↔ ']' ∈ netloc) ∧
      ('[' ∈ netloc → u.checkBracketedNetloc netloc = true) := by
  unfold urlNetloc at h
  generalize netlocOf (dropScheme (cleanUrl url)) = n at h ⊢
  dsimp only at h
  split_ifs at h with hbal hbr hnet
  cases h
  refine ⟨rfl, ?_, ?_⟩
  · have hsame : netloc.contains '[' = netloc.contains ']' := by simpa using hbal
    rw [← List.contains_iff_mem, hsame, List.contains_iff_mem]
  · intro hm
    simpa [hm] using hbr

theorem urlHostname_eq_some {u : Urls} {url h : Text} (hh : urlHostname u url = .ok (some h)) :
    ∃ netloc, urlNetloc u url = .ok netloc ∧ u.lowerHost (rawHost netloc) = h := by
  obtain ⟨netloc, hn, hr⟩ := except_bind_eq_ok.mp hh
  refine ⟨netloc, hn, ?_⟩
  split_ifs at hr with he
  · cases hr
  · cases hr
    rfl

theorem urlHostname_eq_none {u : Urls} {url : Text} (hh : urlHostname u url = .ok none) :
    ∃ netloc, urlNetloc u url = .ok netloc ∧ rawHost netloc = [] := by
  obtain ⟨netloc, hn, hr⟩ := except_bind_eq_ok.mp hh
  refine ⟨netloc, hn, ?_⟩
  split_ifs at hr with he
  · exact List.isEmpty_iff.mp he
  · cases hr

theorem urlNetloc_slashes {u : Urls} {s netloc : Text}
    (h : urlNetloc u ('/' :: '/' :: s) = .ok netloc) : netloc = splitNetloc (safeUrl s) := by
  rw [(urlNetloc_ok h).1, netlocOf_slashes]

/-- The host after `//` is a part of the text there, in lower case. -/
theorem urlHostname_slashes {u : Urls} {s h : Text}
    (hh : urlHostname u ('/' :: '/' :: s) = .ok (some h)) :
    ∃ r, r <:+: safeUrl s ∧ u.lowerHost r = h := by
  obtain ⟨netloc, hn, hr⟩ := urlHostname_eq_some hh
  refine ⟨rawHost netloc, ?_, hr⟩
  rw [urlNetloc_slashes hn]
  exact (rawHost_within _).trans (splitNetloc_within _)

/-- What lies within a host that was read has no byte that is removed. -/
theorem safeUrl_of_within {u : Urls} {s r z : Text} (hr : r <:+: safeUrl s)
    (hz : z <:+: u.lowerHost r) : safeUrl z = z := by
  apply List.filter_eq_self.mpr
  intro c hc
  by_contra hunsafe
  have hmark : isUnsafeUrlByte c = true := by simpa using hunsafe
  have hmem : c ∈ urlMarks := by
    simp only [isUnsafeUrlByte, Bool.or_eq_true, beq_iff_eq] at hmark
    rcases hmark with (rfl | rfl) | rfl <;> decide
  have hs : c ∈ safeUrl s := hr.subset (u.mem_of_lowerHost hmem (hz.subset hc))
  simp [safeUrl, hmark] at hs

/-- Two texts with one inside the other and inside the lower case of the other are one host. -/
theorem lowerHost_eq_of_around {u : Urls} {r z : Text} (hr : r <:+: z)
    (hz : z <:+: u.lowerHost r) : u.lowerHost r = z := by
  have hlow : u.lowerHost r = r := u.lowerHost_eq_of_within (hr.trans hz)
  rw [hlow] at hz ⊢
  exact hr.eq_of_length_le hz.length_le

/-- A text that lies within the host read from it is that host. -/
theorem urlHostname_again {u : Urls} {s h : Text}
    (hh : urlHostname u ('/' :: '/' :: s) = .ok (some h)) (hw : s <:+: h) : h = s := by
  obtain ⟨r, hr, rfl⟩ := urlHostname_slashes hh
  rw [safeUrl_of_within hr hw] at hr
  exact lowerHost_eq_of_around hr hw

/-! ## Brackets -/

theorem urlHostname_unclosed {u : Urls} {s : Text} (hs : ']' ∉ s) (out : Option Text) :
    urlHostname u ('/' :: '/' :: '[' :: s) ≠ .ok out := by
  intro hh
  obtain ⟨netloc, hn, -⟩ := except_bind_eq_ok.mp hh
  have hopen : '[' ∈ netloc := by
    rw [urlNetloc_slashes hn]
    simp [splitNetloc, safeUrl, isUnsafeUrlByte]
  have hclosed := (urlNetloc_ok hn).2.1.mp hopen
  rw [urlNetloc_slashes hn] at hclosed
  have hmem := List.mem_of_mem_filter ((splitNetloc_within _).subset hclosed)
  rcases List.mem_cons.mp hmem with h | h
  · exact absurd h (by decide)
  · exact hs h

theorem urlHostname_ne_none {u : Urls} {s : Text} :
    urlHostname u ('/' :: '/' :: '[' :: s) ≠ .ok none := by
  intro hh
  obtain ⟨netloc, hn, hr⟩ := urlHostname_eq_none hh
  have hopen : '[' ∈ netloc := by
    rw [urlNetloc_slashes hn]
    simp [splitNetloc, safeUrl, isUnsafeUrlByte]
  have hcheck := (urlNetloc_ok hn).2.2 hopen
  rw [Urls.checkBracketedNetloc, hr, u.bracketed_nil, Bool.and_false] at hcheck
  cases hcheck

/-- A text with a colon that lies within the host read from its brackets is that host. -/
theorem urlHostname_brackets {u : Urls} {z h : Text}
    (hh : urlHostname u ('/' :: '/' :: '[' :: (z ++ [']'])) = .ok (some h)) (hw : z <:+: h)
    (hcolon : ':' ∈ z) : h = z := by
  obtain ⟨netloc, hn, rfl⟩ := urlHostname_eq_some hh
  have hnet : netloc <:+: '[' :: (safeUrl z ++ [']']) := by
    have hsafe : safeUrl ('[' :: (z ++ [']'])) = '[' :: (safeUrl z ++ [']']) := by
      simp [safeUrl, isUnsafeUrlByte]
    rw [urlNetloc_slashes hn, ← hsafe]
    exact splitNetloc_within _
  have hin : rawHost netloc <:+: safeUrl z := by
    have hraw : ':' ∈ rawHost netloc := u.mem_of_lowerHost (by decide) (hw.subset hcolon)
    obtain ⟨hopen, hclose⟩ := rawHost_of_colon hraw
    exact within_init hclose (within_tail (hopen.trans hnet))
  rw [safeUrl_of_within hin hw] at hin
  exact lowerHost_eq_of_around hin hw

end MMRelay
