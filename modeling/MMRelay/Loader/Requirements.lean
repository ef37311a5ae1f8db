import MMRelay.Lib.PyValue
import MMRelay.Lib.Shlex
import MMRelay.Lib.Walk

/-!
# Requirement files

`_collect_requirements` (`plugin_loader.py`): the requirement lines of a file and of the files that
it includes, each file read once. The depth of its calls is bounded by the interpreter, so `room`
is what the recursion limit leaves.

* `AbsPath`, `Files`, `Exc`;
* `parseLine`, `collectLine`, `collectRequirements`;
* `listings`, `collectRequirements_eq_ok`: the collector is a walk of the includes;
* **`collectRequirements_isOk_iff`**: when it does not raise;
* **`mem_collected_iff`**: it collects the requirement lines of the files that it reaches;
* **`collectRequirements_terminates`**: the files bound the depth of its calls.
-/

namespace MMRelay.Loader

/-- An exception. -/
inductive Exc
  | osError
  | calledProcessError
  | timeoutExpired
  | unicodeDecodeError
  | valueError
  | recursionError
  | systemExit
  | other
  deriving DecidableEq

/-! ## Paths and files -/

/-- An absolute path as `os.path.abspath` leaves it; two leading slashes are kept apart from one. -/
structure AbsPath where
  doubleSlash : Bool
  parts : List Text
  deriving DecidableEq

/-- One component of `os.path.normpath`. -/
def normPart (parts : List Text) (part : Text) : List Text :=
  if part = [] ∨ part = ".".toList then parts
  else if part = "..".toList then parts.dropLast
  else parts ++ [part]

def normParts (base : List Text) (path : Text) : List Text := (path.splitOn '/').foldl normPart base

def startsWith (pre : String) (s : Text) : Bool := pre.toList.isPrefixOf s

namespace AbsPath

/-- `os.path.dirname`. -/
def dirname (p : AbsPath) : AbsPath := { p with parts := p.parts.dropLast }

/-- `os.path.abspath` of a path that is relative to the directory, or absolute. -/
def resolve (dir : AbsPath) (path : Text) : AbsPath :=
  if startsWith "/" path then
    ⟨startsWith "//" path && !startsWith "///" path, normParts [] path⟩
  else ⟨dir.doubleSlash, normParts dir.parts path⟩

def hasNul (p : AbsPath) : Bool := p.parts.any fun part => part.contains '\x00'

end AbsPath

/-- A regular file. -/
inductive FileEntry
  | unreadable
  | bytes (bs : List UInt8)
  deriving DecidableEq

/-- The regular files; what is not among them cannot be opened. -/
structure Files where
  entry : AbsPath → Option FileEntry
  paths : List AbsPath
  complete : ∀ p, entry p ≠ none → p ∈ paths
  /-- How much of a text file is decoded at once. -/
  chunkSize : ℕ

namespace Files

/-- `os.path.isfile`. -/
def isFile (files : Files) (p : AbsPath) : Bool := !p.hasNul && (files.entry p).isSome

/-- `open(path, encoding="utf-8")`. -/
def openText (files : Files) (p : AbsPath) : Except Exc TextFile :=
  if p.hasNul then .error .valueError
  else
    match files.entry p with
    | some (.bytes bs) => .ok (TextFile.ofBytes files.chunkSize bs)
    | _ => .error .osError

end Files

/-! ## Lines -/

/-- The characters of `c.lower()` as far as they can be compared with ASCII. -/
def lowerChar (c : Char) : Text :=
  if c = '\u0130' then ['i', '\u0307'] else if c = '\u212a' then ['k'] else [c.toLower]

/-- `s.lower()`. -/
def lower (s : Text) : Text := s.flatMap lowerChar

/-- `s.split(sep, 1)[0]`. -/
def cutAt (sep : Text) : Text → Text
  | [] => []
  | c :: cs => if sep.isPrefixOf (c :: cs) then [] else c :: cutAt sep cs

/-- `s.split("=", 1)[1]` of a string with an equals sign. -/
def afterEquals (s : Text) : Text := (s.dropWhile (· ≠ '=')).drop 1

/-- `s.split(None, 1)[1]`, empty when there is none; the string has no blanks at its ends. -/
def afterWord (s : Text) : Text := (s.dropWhile fun c => !isSpace c).dropWhile isSpace

/-- What a line of a requirements file asks for. -/
inductive Directive
  | skip
  | nested (path : Text)
  | requirement (line : Text)
  deriving DecidableEq

/-- The body of the loop of `_collect_requirements` up to what it does with the line. -/
def parseLine (rawLine : Text) : Directive :=
  let line := stripChars rawLine
  if line = [] ∨ startsWith "#" line then .skip
  else
    -- without a comment nothing is cut and the line is stripped already
    let line := stripChars (cutAt " #".toList line)
    if line = [] then .skip
    else
      let lowerLine := lower line
      if startsWith "--requirement=" lowerLine || startsWith "--constraint=" lowerLine then
        .nested (stripChars (afterEquals line))
      else if startsWith "-r " lowerLine || startsWith "--requirement " lowerLine ||
          startsWith "-c " lowerLine || startsWith "--constraint " lowerLine then
        if afterWord line = [] then .skip else .nested (stripChars (afterWord line))
      else if lowerLine ∈ ["-r", "-c", "--requirement", "--constraint"].map String.toList then .skip
      else .requirement line

/-! ## The collector -/

/-- The lines and the visited files so far. -/
abbrev Collected := List Text × List AbsPath

/-- One turn of the loop; `nested` is the recursive call. -/
def collectLine (nested : List AbsPath → AbsPath → Except Exc Collected) (baseDir : AbsPath)
    (s : Collected) (rawLine : Text) : Except Exc Collected :=
  match parseLine rawLine with
  | .skip => .ok s
  | .requirement line => .ok (s.1 ++ [line], s.2)
  | .nested path => do
    let r ← nested s.2 (baseDir.resolve path)
    return (s.1 ++ r.1, r.2)

/-- `_collect_requirements` with room for so many nested calls. -/
def collectRequirements (files : Files) : ℕ → List AbsPath → AbsPath → Except Exc Collected
  | 0, _, _ => .error .recursionError
  | room + 1, visited, path =>
    if path ∈ visited then .ok ([], visited)
    else
      match files.openText path with
      | .error .osError => .ok ([], path :: visited)
      | .error e => .error e
      | .ok file => do
        let r ← file.lines.foldlM (collectLine (collectRequirements files room) path.dirname)
          ([], path :: visited)
        if file.undecodable then .error .unicodeDecodeError else .ok r

/-! ## The collector as a walk -/

/-- What a line contributes. -/
def lineListing (baseDir : AbsPath) (rawLine : Text) : Option (Listing AbsPath Text) :=
  match parseLine rawLine with
  | .skip => none
  | .requirement line => some (.item line)
  | .nested path => some (.nested (baseDir.resolve path))

/-- What a file lists; `none` when reading it raises something that is not caught. -/
def listings (files : Files) (path : AbsPath) : Option (List (Listing AbsPath Text)) :=
  match files.openText path with
  | .error .osError => some []
  | .error _ => none
  | .ok file =>
    if file.undecodable then none else some (file.lines.filterMap (lineListing path.dirname))

/-- The files that a file includes. -/
def includes (files : Files) : AbsPath → List AbsPath := nestedNodes (listings files)

/-- The requirement lines that a file itself has. -/
def ownRequirements (files : Files) : AbsPath → List Text := ownItems (listings files)

theorem foldlM_collectLine {nested : List AbsPath → AbsPath → Except Exc Collected}
    {gathered : List AbsPath → AbsPath → Option Collected}
    (h : ∀ visited p r, nested visited p = .ok r ↔ gathered visited p = some r)
    (baseDir : AbsPath) (lines : List Text) (s r : Collected) :
    lines.foldlM (collectLine nested baseDir) s = .ok r ↔
      (lines.filterMap (lineListing baseDir)).foldlM (gatherListing gathered) s = some r := by
  induction lines generalizing s with
  | nil =>
    rw [List.foldlM_nil, List.filterMap_nil, List.foldlM_nil]
    exact ⟨fun heq => congrArg some (Except.ok.inj heq), fun heq => congrArg _ (Option.some.inj heq)⟩
  | cons line lines ih =>
    rw [List.foldlM_cons, List.filterMap_cons]
    unfold collectLine lineListing
    cases hline : parseLine line with
    | skip => exact ih s
    | requirement l => exact ih (s.1 ++ [l], s.2)
    | nested path =>
      simp only [List.foldlM_cons]
      rw [except_bind_eq_ok]
      change _ ↔ (gatherListing gathered s (.nested (baseDir.resolve path))).bind _ = some r
      rw [Option.bind_eq_some_iff]
      refine exists_congr fun mid => and_congr ?_ (ih mid)
      unfold gatherListing
      rw [except_bind_eq_ok, Option.map_eq_some_iff]
      refine exists_congr fun r' => and_congr (h s.2 _ r') ?_
      exact ⟨fun heq => Except.ok.inj heq, fun heq => congrArg _ heq⟩

/-- **The collector is a walk** of the includes that gathers the requirement lines. -/
theorem collectRequirements_eq_ok (files : Files) (room : ℕ) (visited : List AbsPath)
    (path : AbsPath) (r : Collected) :
    collectRequirements files room visited path = .ok r ↔
      gather (listings files) room visited path = some r := by
  induction room generalizing visited path r with
  | zero =>
    unfold collectRequirements gather
    simp
  | succ room ih =>
    unfold collectRequirements gather
    split_ifs with hv
    · exact ⟨fun h => congrArg some (Except.ok.inj h), fun h => congrArg _ (Option.some.inj h)⟩
    · cases hopen : files.openText path with
      | error e =>
        have hl : listings files path = if e = .osError then some [] else none := by
          unfold listings
          rw [hopen]
          cases e <;> rfl
        rw [hl]
        cases e with
        | osError =>
          simp only [if_true, Option.bind_some, List.foldlM_nil]
          exact ⟨fun h => congrArg some (Except.ok.inj h), fun h => congrArg _ (Option.some.inj h)⟩
        | _ => simp
      | ok file =>
        have hl : listings files path = if file.undecodable then none
            else some (file.lines.filterMap (lineListing path.dirname)) := by
          unfold listings
          rw [hopen]
        simp only
        rw [hl, except_bind_eq_ok]
        cases hbad : file.undecodable with
        | true => simp
        | false =>
          simp only [Bool.false_eq_true, if_false, Option.bind_some, Except.ok.injEq]
          rw [← foldlM_collectLine ih]
          simp

/-! ## When it does not raise, and what it collects -/

theorem listings_isSome_iff (files : Files) (path : AbsPath) :
    (listings files path).isSome = true ↔ path.hasNul = false ∧
      ∀ bs, files.entry path = some (.bytes bs) →
        (TextFile.ofBytes files.chunkSize bs).undecodable = false := by
  unfold listings Files.openText
  cases hnul : path.hasNul with
  | true => simp
  | false =>
    simp only [Bool.false_eq_true, if_false, true_and]
    cases hentry : files.entry path with
    | none => simp
    | some e =>
      cases e with
      | unreadable => simp
      | bytes bs =>
        cases hbad : (TextFile.ofBytes files.chunkSize bs).undecodable with
        | true => simp [hbad]
        | false => simp [hbad]

/-- **When the collector does not raise**: the includes do not nest too deep, and every file that
is reached has a path that can be opened and, if it is there, is UTF-8. -/
theorem collectRequirements_isOk_iff (files : Files) (room : ℕ) (root : AbsPath) :
    (∃ r, collectRequirements files room [] root = .ok r) ↔
      (walk (includes files) room [] root).isSome = true ∧
        ∀ p, Reach (includes files) root p → (listings files p).isSome = true := by
  constructor
  · rintro ⟨⟨lines, after⟩, h⟩
    obtain ⟨hwalk, hgather⟩ := gather_eq_some ((collectRequirements_eq_ok _ _ _ _ _).mp h)
    refine ⟨Option.isSome_iff_exists.mpr ⟨after, hwalk⟩, fun p hp => ?_⟩
    exact (hgather.opens p ((mem_walk_iff hwalk p).mpr hp)).resolve_left List.not_mem_nil
  · rintro ⟨hroom, hopen⟩
    obtain ⟨after, hwalk⟩ := Option.isSome_iff_exists.mp hroom
    obtain ⟨lines, h⟩ := gather_of_walk hwalk fun p hp =>
      Or.inr (hopen p ((mem_walk_iff hwalk p).mp hp))
    exact ⟨(lines, after), (collectRequirements_eq_ok _ _ _ _ _).mpr h⟩

/-- A requirement line of a file that is reached from the root. -/
def IsRequirement (files : Files) (root : AbsPath) (line : Text) : Prop :=
  ∃ p, Reach (includes files) root p ∧ line ∈ ownRequirements files p

/-- **What is collected**: the requirement lines of the files that are reached. -/
theorem mem_collected_iff {files : Files} {room : ℕ} {root : AbsPath} {r : Collected}
    (h : collectRequirements files room [] root = .ok r) (line : Text) :
    line ∈ r.1 ↔ IsRequirement files root line := by
  obtain ⟨lines, after⟩ := r
  obtain ⟨hwalk, hgather⟩ := gather_eq_some ((collectRequirements_eq_ok _ _ _ _ _).mp h)
  rw [hgather.mem_out]
  unfold IsRequirement
  simp only [List.not_mem_nil, false_or, not_false_eq_true, true_and, mem_walk_iff hwalk]
  rfl

/-! ## Termination -/

theorem mem_paths_of_openText {files : Files} {p : AbsPath} {file : TextFile}
    (h : files.openText p = .ok file) : p ∈ files.paths := by
  apply files.complete
  intro hnone
  unfold Files.openText at h
  rw [hnone] at h
  split_ifs at h

theorem openText_ne (files : Files) (p : AbsPath) :
    files.openText p ≠ .error .recursionError := by
  unfold Files.openText
  split_ifs
  · intro heq
    cases heq
  · split
    · intro heq
      cases heq
    · intro heq
      cases heq

theorem collected_mono {files : Files} {room : ℕ} {visited : List AbsPath} {p : AbsPath}
    {r : Collected} (h : collectRequirements files room visited p = .ok r) :
    ∀ b ∈ visited, b ∈ r.2 :=
  (walked_walk (gather_eq_some ((collectRequirements_eq_ok _ _ _ _ _).mp h)).1).mono

/-- While files are left to visit there is room for the lines of a file. -/
theorem foldlM_collectLine_ne {files : Files} {room : ℕ}
    (h : ∀ visited p, unvisited files.paths visited < room →
      collectRequirements files room visited p ≠ .error .recursionError)
    (baseDir : AbsPath) (lines : List Text) (s : Collected)
    (hs : unvisited files.paths s.2 < room) :
    lines.foldlM (collectLine (collectRequirements files room) baseDir) s ≠
      .error .recursionError := by
  induction lines generalizing s with
  | nil =>
    intro heq
    cases heq
  | cons line lines ih =>
    rw [List.foldlM_cons]
    unfold collectLine
    cases parseLine line with
    | skip => exact ih s hs
    | requirement l => exact ih (s.1 ++ [l], s.2) hs
    | nested path =>
      simp only
      cases hr : collectRequirements files room s.2 (baseDir.resolve path) with
      | error e =>
        intro heq
        exact h s.2 _ hs (hr.trans heq)
      | ok r =>
        refine ih (s.1 ++ r.1, r.2) ?_
        have hle : unvisited files.paths r.2 ≤ unvisited files.paths s.2 :=
          unvisited_mono (collected_mono hr)
        exact Nat.lt_of_le_of_lt hle hs

theorem collectRequirements_ne {files : Files} {room : ℕ} {visited : List AbsPath}
    (h : unvisited files.paths visited < room) (p : AbsPath) :
    collectRequirements files room visited p ≠ .error .recursionError := by
  induction room generalizing visited p with
  | zero => exact absurd h (Nat.not_lt_zero _)
  | succ room ih =>
    unfold collectRequirements
    split_ifs with hv
    · intro heq
      cases heq
    · cases hopen : files.openText p with
      | error e =>
        cases e with
        | recursionError => exact absurd hopen (openText_ne files p)
        | _ =>
          intro heq
          cases heq
      | ok file =>
        -- the file is one that is visited for the first time
        have hroom : unvisited files.paths (p :: visited) < room := by
          have := unvisited_cons_lt (mem_paths_of_openText hopen) hv
          omega
        have hfold := foldlM_collectLine_ne (fun _ p hvis => ih hvis p) p.dirname file.lines
          ([], p :: visited) hroom
        simp only
        intro heq
        cases hr : file.lines.foldlM (collectLine (collectRequirements files room) p.dirname)
            ([], p :: visited) with
        | error e =>
          rw [hr] at heq
          exact hfold (hr.trans heq)
        | ok r =>
          rw [hr] at heq
          change (if file.undecodable = true then _ else _) = _ at heq
          split_ifs at heq
          cases heq

/-- **Termination.** Whatever the files include, the calls nest no deeper than there are files. -/
theorem collectRequirements_terminates (files : Files) {room : ℕ}
    (h : files.paths.length < room) (root : AbsPath) :
    collectRequirements files room [] root ≠ .error .recursionError := by
  refine collectRequirements_ne (Nat.lt_of_le_of_lt ?_ h) root
  exact List.length_filter_le _ _

end MMRelay.Loader
