import Mathlib.Tactic.TypeStar

/-! Labelled transition systems, their runs under a restriction on the steps, and the rule
that an invariant of the allowed steps holds along every such run.
-/

/-- A transition system over states `σ` whose steps carry labels of type `α`. -/
structure LabelledSystem (σ α : Type*) where
  Step : σ → α → σ → Prop

namespace LabelledSystem

variable {σ α : Type*} {system : LabelledSystem σ α} {allow : σ → α → Prop}

/-- A run from one state to another all of whose steps are allowed in the state they leave. -/
inductive Run (system : LabelledSystem σ α) (allow : σ → α → Prop) : σ → σ → Prop
  | refl (s : σ) : Run system allow s s
  | tail {s t u : σ} {a : α} (before : Run system allow s t) (allowed : allow t a)
    (step : system.Step t a u)
    : Run system allow s u

/-- Every state is reached under the restriction that allows every step. -/
def Reaches (system : LabelledSystem σ α) (s t : σ) : Prop :=
  system.Run (fun _ _ => True) s t

/-- A single allowed step is a run. -/
theorem Run.single {s t : σ} {a : α} (allowed : allow s a) (step : system.Step s a t)
    : system.Run allow s t :=
  .tail (.refl s) allowed step

/-- Runs compose, by induction on the second one. -/
theorem Run.trans {s t u : σ} (first : system.Run allow s t) (second : system.Run allow t u)
    : system.Run allow s u := by
  induction second with
  | refl => exact first
  | tail _ allowed step ih => exact .tail ih allowed step

/-- A run stays a run under a weaker restriction. -/
theorem Run.mono {weaker : σ → α → Prop} {s t : σ} (run : system.Run allow s t)
    (weakens : ∀ s a, allow s a → weaker s a)
    : system.Run weaker s t := by
  induction run with
  | refl => exact .refl _
  | tail _ allowed step ih => exact .tail ih (weakens _ _ allowed) step

/-- Restricted runs only reach reachable states. -/
theorem Run.reaches {s t : σ} (run : system.Run allow s t) : system.Reaches s t :=
  run.mono (fun _ _ _ => trivial)

/-- What holds at the start and is preserved by every allowed step holds along the run. -/
theorem Run.invariant (inv : σ → Prop) {s t : σ} (run : system.Run allow s t) (start : inv s)
    (preserved : ∀ {s a t}, inv s → allow s a → system.Step s a t → inv t)
    : inv t := by
  induction run with
  | refl => exact start
  | tail _ allowed step ih => exact preserved ih allowed step

end LabelledSystem
