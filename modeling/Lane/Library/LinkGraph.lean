import Mathlib.Logic.Relation

/-! Graphs of links that point from a node to the node above it, and when new links close no
cycle among them.
-/

namespace LinkGraph

open Relation

variable {α : Type*}

/-- No path along the links returns to its start. -/
def Acyclic (link : α → α → Prop) : Prop := ∀ a, ¬ TransGen link a a

/-- The old links together with new ones. -/
def With (link new : α → α → Prop) (a b : α) : Prop := link a b ∨ new a b

variable {link new sub : α → α → Prop} {a b top : α}

/-- Fewer links have no more cycles. -/
theorem Acyclic.of_subset (acyclic : Acyclic link) (within : ∀ a b, sub a b → link a b)
    : Acyclic sub :=
  fun a cycle => acyclic a (TransGen.mono within a a cycle)

theorem acyclic_empty : Acyclic (fun _ _ : α => False) := by
  intro a cycle
  obtain ⟨_, step, _⟩ := TransGen.head'_iff.mp cycle
  exact step

/-- A path with new links uses none of them, or it splits at one. -/
theorem path_with (path : TransGen (With link new) a b)
    : TransGen link a b
      ∨ ∃ x y,
          ReflTransGen (With link new) a x ∧ new x y ∧ ReflTransGen (With link new) y b := by
  induction path with
  | @single c step =>
      rcases step with old | fresh
      · exact .inl (.single old)
      · exact .inr ⟨a, c, .refl, fresh, .refl⟩
  | @tail c d before step ih =>
      rcases step with old | fresh
      · rcases ih with within | ⟨x, y, first, link, second⟩
        · exact .inl (within.tail old)
        · exact .inr ⟨x, y, first, link, second.tail (.inl old)⟩
      · exact .inr ⟨c, d, before.to_reflTransGen, fresh, .refl⟩

/-- New links close no cycle when no path leads from the upper end of one back to its lower
end: a cycle would split at a new link.
-/
theorem Acyclic.add (acyclic : Acyclic link)
    (apart : ∀ a b, new a b → ¬ ReflTransGen (With link new) b a)
    : Acyclic (With link new) := by
  intro a cycle
  rcases path_with cycle with within | ⟨x, y, first, fresh, second⟩
  · exact acyclic a within
  · exact apart x y fresh (second.trans first)

/-- When all new links lead to one node, what that node reaches it reaches without them. -/
theorem reaches_of_fan (into : ∀ a b, new a b → b = top)
    (path : ReflTransGen (With link new) top a)
    : ReflTransGen link top a := by
  induction path with
  | refl => exact .refl
  | tail _ step ih =>
      rcases step with old | fresh
      · exact ih.tail old
      · obtain rfl := into _ _ fresh
        exact .refl

/-- New links to one node close no cycle when that node is not below any of their lower ends. -/
theorem Acyclic.addFan (acyclic : Acyclic link) (into : ∀ a b, new a b → b = top)
    (apart : ∀ a b, new a b → a ≠ top ∧ ¬ TransGen link top a)
    : Acyclic (With link new) := by
  refine acyclic.add ?_
  intro a b fresh path
  obtain rfl := into a b fresh
  obtain ⟨different, unreached⟩ := apart a b fresh
  rcases reflTransGen_iff_eq_or_transGen.mp (reaches_of_fan into path) with same | reached
  · exact different same
  · exact unreached reached

end LinkGraph
