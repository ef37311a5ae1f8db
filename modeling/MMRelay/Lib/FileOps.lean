import MMRelay.Lib.FileSystem
import MMRelay.Lib.Prog

/-!
# File operations that can fail

The operations of Python's `shutil` and `pathlib` on a file system, each of which may fail half-way
as a plan of faults says: a failed `rmtree` leaves a part of the tree, a failed copy a part of its
target, a failed `move` across devices either of these.

* `Machine`, `Damage`, `OsError`: the state, what a fault leaves, the exception of an operation;
* `change`: what another program does;
* `copyTarget`, `moveTarget`: where a copy or a move ends;
* `mkdir`, `copy2`, `copytree`, `unlink`, `rmtree`, `rmtreeIgnore`, `replace`, `move`, `rmdir`,
  `writeText`.
-/

namespace MMRelay

/-- A file system and the number of operations tried. -/
structure Machine where
  fs : Fs
  tick : ℕ

/-- How far a failed operation came. -/
inductive Phase
  | untouched
  | copying
  | deleting
  deriving DecidableEq

/-- What a failed operation leaves: the entries of a tree that remain, and the beginning of a file
that was being written. -/
structure Damage where
  phase : Phase
  keep : Path → Bool
  junk : String

/-- The exceptions have one for failed operations. -/
class OsError (ε : Type) where
  osError : ε

namespace FileOps

variable {ι ε : Type} [OsError ε]

/-- Try an operation: a fault leaves the damage, an operation that is not possible nothing. -/
def tryOp (faults : ℕ → Option Damage) (op : Fs → Option Fs) (damaged : Damage → Fs → Fs) :
    Prog Machine ι ε Unit := fun s =>
  match faults s.tick with
  | some d => ⟨.error OsError.osError, ⟨damaged d s.fs, s.tick + 1⟩, []⟩
  | none =>
    match op s.fs with
    | none => ⟨.error OsError.osError, ⟨s.fs, s.tick + 1⟩, []⟩
    | some fs => ⟨.ok (), ⟨fs, s.tick + 1⟩, []⟩

/-- Leave a note about the file system. -/
def note (f : Fs → ι) : Prog Machine ι ε Unit := Prog.note fun s => f s.fs

def getFs : Prog Machine ι ε Fs := do
  let s ← Prog.get
  pure s.fs

def getTick : Prog Machine ι ε ℕ := do
  let s ← Prog.get
  pure s.tick

/-- What another program does to the files. -/
def change (f : Fs → Fs) : Prog Machine ι ε Unit := fun s => ⟨.ok (), ⟨f s.fs, s.tick⟩, []⟩

/-- Run a program if the file system passes a test. -/
def whenFs (test : Fs → Bool) (x : Prog Machine ι ε Unit) : Prog Machine ι ε Unit := do
  let fs ← getFs
  if test fs then x else pure ()

/-! ## The operations on a file system -/

def mkdirOp (p : Path) (fs : Fs) : Option Fs :=
  if p.inits.any fs.isFile then none else some (fs.mkdirs p)

/-- A copy or a move into a directory keeps the name. -/
def intoDir (fs : Fs) (src dst : Path) : Path :=
  if fs.isDir dst then dst ++ src.getLast?.toList else dst

/-- The file that `copy2` writes, with its content and time. -/
def copyTarget (fs : Fs) (src dst : Path) : Option (Path × String × ℕ) :=
  match fs.node src with
  | some (.file c m) =>
    let target := intoDir fs src dst
    if target ≠ src ∧ fs.isDir target = false ∧ fs.parentIsDir target then some (target, c, m)
    else none
  | _ => none

def copy2Op (src dst : Path) (fs : Fs) : Option Fs :=
  (copyTarget fs src dst).map fun t => fs.writeFile t.1 t.2.1 t.2.2

def copy2Damage (src dst : Path) (d : Damage) (fs : Fs) : Fs :=
  match copyTarget fs src dst with
  | some t => if d.phase = .untouched then fs else fs.writeFile t.1 d.junk 0
  | none => fs

/-- `copytree` needs a directory and a target that is not there. -/
def canCopytree (fs : Fs) (src dst : Path) : Bool :=
  fs.isDir src && !fs.pathExists dst && decide (¬ src <+: dst) &&
    !(dst.dropLast.inits.any fs.isFile)

def copytreeOp (src dst : Path) (fs : Fs) : Option Fs :=
  if canCopytree fs src dst then some ((fs.mkdirs dst.dropLast).copyTree src dst) else none

def copytreeDamage (src dst : Path) (d : Damage) (fs : Fs) : Fs :=
  if canCopytree fs src dst && d.phase ≠ .untouched then
    ((fs.mkdirs dst.dropLast).copyTree src dst).removePart dst d.keep
  else fs

def unlinkOp (p : Path) (fs : Fs) : Option Fs :=
  if fs.isFile p then some (fs.removeTree p) else none

def rmtreeOp (p : Path) (fs : Fs) : Option Fs :=
  if fs.isDir p then some (fs.removeTree p) else none

def rmtreeDamage (p : Path) (d : Damage) (fs : Fs) : Fs :=
  if fs.isDir p then fs.removePart p d.keep else fs

/-- The entry at `src` takes the place of a file at `dst`. -/
def renamed (fs : Fs) (src dst : Path) : Fs :=
  ((fs.removeTree dst).copyTree src dst).removeTree src

def replaceOp (src dst : Path) (fs : Fs) : Option Fs :=
  if fs.isFile src = false then none
  else if src = dst then some fs
  else if fs.isDir dst = false ∧ fs.parentIsDir dst then some (renamed fs src dst)
  else none

/-- Where `move` ends: inside a directory that is there, and never inside what is moved. -/
def moveTarget (fs : Fs) (src dst : Path) : Option Path :=
  let target := intoDir fs src dst
  if fs.pathExists src = false then none
  else if fs.isDir dst ∧ src ≠ dst ∧ fs.pathExists target then none
  else if src = dst then some dst
  else if src <+: target ∨ fs.parentIsDir target = false then none
  else if fs.pathExists target ∧ fs.isDir src then none
  else some target

def moveOp (src dst : Path) (fs : Fs) : Option Fs :=
  (moveTarget fs src dst).map fun target => if src = target then fs else renamed fs src target

def moveDamage (src dst : Path) (d : Damage) (fs : Fs) : Fs :=
  match moveTarget fs src dst with
  | none => fs
  | some target =>
    if src = target then fs
    else
      match d.phase with
      | .untouched => fs
      | .copying =>
        if fs.isFile src then fs.writeFile target d.junk 0
        else (fs.copyTree src target).removePart target d.keep
      | .deleting => ((fs.removeTree target).copyTree src target).removePart src d.keep

def rmdirOp (p : Path) (fs : Fs) : Option Fs :=
  if fs.isDir p ∧ fs.children p = [] then some (fs.removeTree p) else none

def canWrite (fs : Fs) (p : Path) : Bool := !fs.isDir p && fs.parentIsDir p

def writeTextOp (p : Path) (text : String) (m : ℕ) (fs : Fs) : Option Fs :=
  if canWrite fs p then some (fs.writeFile p text m) else none

def writeTextDamage (p : Path) (d : Damage) (fs : Fs) : Fs :=
  if canWrite fs p && d.phase ≠ .untouched then fs.writeFile p d.junk 0 else fs

/-! ## The operations of a program -/

section Programs

variable (faults : ℕ → Option Damage)

/-- `Path.mkdir(parents=True, exist_ok=True)`. -/
def mkdir (p : Path) : Prog Machine ι ε Unit :=
  tryOp faults (mkdirOp p) fun d fs =>
    if d.phase = .untouched then fs else fs.mkdirs p.dropLast

/-- `shutil.copy2`; the time of the file is copied. -/
def copy2 (src dst : Path) : Prog Machine ι ε Unit :=
  tryOp faults (copy2Op src dst) (copy2Damage src dst)

/-- `shutil.copytree`. -/
def copytree (src dst : Path) : Prog Machine ι ε Unit :=
  tryOp faults (copytreeOp src dst) (copytreeDamage src dst)

/-- `Path.unlink`. -/
def unlink (p : Path) : Prog Machine ι ε Unit :=
  tryOp faults (unlinkOp p) fun _ fs => fs

/-- `shutil.rmtree`. -/
def rmtree (p : Path) : Prog Machine ι ε Unit :=
  tryOp faults (rmtreeOp p) (rmtreeDamage p)

/-- `shutil.rmtree(…, ignore_errors=True)`. -/
def rmtreeIgnore (p : Path) : Prog Machine ι ε Unit := do
  let _ ← (rmtree faults p : Prog Machine ι ε Unit).attempt
  pure ()

/-- `Path.replace`. -/
def replace (src dst : Path) : Prog Machine ι ε Unit :=
  tryOp faults (replaceOp src dst) fun _ fs => fs

/-- `shutil.move`. -/
def move (src dst : Path) : Prog Machine ι ε Unit :=
  tryOp faults (moveOp src dst) (moveDamage src dst)

/-- `Path.rmdir`. -/
def rmdir (p : Path) : Prog Machine ι ε Unit :=
  tryOp faults (rmdirOp p) fun _ fs => fs

/-- `Path.write_text`. -/
def writeText (p : Path) (text : String) (m : ℕ) : Prog Machine ι ε Unit :=
  tryOp faults (writeTextOp p text m) (writeTextDamage p)

end Programs

end FileOps

end MMRelay
