import Lane.Library.LabelledSystem
import Mathlib.Algebra.BigOperators.Group.Multiset.Basic

/-! Pools of tasks that take turns over shared data. A task runs in segments: one segment
changes the shared data, ends or goes on as other tasks, and shows what the outside can see.
What the tasks own adds up in a commutative monoid, and an invariant of the shared data and
that sum needs to look at one segment only.
-/

/-- Shared data, the tasks that are not over, and what has been shown. -/
structure TaskPool (σ τ ω : Type*) where
  shared : σ
  tasks : Multiset τ
  shown : List ω

namespace TaskPool

/-- What happens to a pool: a task enters it, or one of its tasks runs one segment. -/
inductive Move (τ ω : Type*) where
  | enter (task : τ)
  | run (task : τ) (shown : List ω)

variable {σ τ ω M : Type*}

/-- The moves of a pool whose segments are given. -/
inductive Step (entry : τ → Prop) (segment : σ → τ → σ → List τ → List ω → Prop)
    : TaskPool σ τ ω → Move τ ω → TaskPool σ τ ω → Prop
  | enter {pool : TaskPool σ τ ω} {task : τ} (enters : entry task)
    : Step entry segment pool (.enter task) { pool with tasks := task ::ₘ pool.tasks }
  | run {shared after : σ} {task : τ} {rest : Multiset τ} {next : List τ}
    {before shown : List ω} (runs : segment shared task after next shown)
    : Step entry segment ⟨shared, task ::ₘ rest, before⟩ (.run task shown)
        ⟨after, next + rest, before ++ shown⟩

/-- Pools as a transition system over their moves. -/
def system (entry : τ → Prop) (segment : σ → τ → σ → List τ → List ω → Prop)
    : LabelledSystem (TaskPool σ τ ω) (Move τ ω) where
  Step := Step entry segment

/-- A pool without tasks that has shown nothing. -/
def start (shared : σ) : TaskPool σ τ ω := ⟨shared, 0, []⟩

/-- What the tasks own together. -/
def owned [AddCommMonoid M] (owns : τ → M) (pool : TaskPool σ τ ω) : M :=
  (pool.tasks.map owns).sum

/-- A homomorphism takes what the tasks own together to what they own under it. -/
theorem owned_map {N : Type*} [AddCommMonoid M] [AddCommMonoid N] (f : M →+ N) (owns : τ → M)
    (pool : TaskPool σ τ ω)
    : f (pool.owned owns) = pool.owned (fun task => f (owns task)) := by
  unfold owned
  rw [map_multiset_sum, Multiset.map_map]
  rfl

variable {entry : τ → Prop} {segment : σ → τ → σ → List τ → List ω → Prop}
  {allow : TaskPool σ τ ω → Move τ ω → Prop} {pool : TaskPool σ τ ω} {shared : σ}

/-- What has been shown stays shown, by induction on the run. -/
theorem shown_prefix {before after : TaskPool σ τ ω}
    (run : (system entry segment).Run allow before after)
    : before.shown <+: after.shown := by
  induction run with
  | refl => exact List.prefix_refl _
  | tail _ _ step ih =>
      cases step with
      | enter => exact ih
      | run => exact ih.trans (List.prefix_append _ _)

/-- What every segment keeps of the shared data and of the tasks that it leaves holds along the
run, by induction on it.
-/
theorem invariant_of_segments (inv : σ → Prop) (good : τ → Prop)
    (run : (system entry segment).Run allow (start shared) pool) (initial : inv shared)
    (entries : ∀ task, entry task → good task)
    (segments
      : ∀ {shared after : σ} {task : τ} {next : List τ} {shown : List ω},
          segment shared task after next shown
          → inv shared
          → good task
          → inv after ∧ ∀ other ∈ next, good other)
    : inv pool.shared ∧ ∀ task ∈ pool.tasks, good task := by
  refine run.invariant (fun pool => inv pool.shared ∧ ∀ task ∈ pool.tasks, good task)
    ⟨initial, fun task member => absurd member (Multiset.notMem_zero task)⟩ ?_
  intro before move after holds _ step
  cases step with
  | enter enters =>
      refine ⟨holds.1, ?_⟩
      intro task member
      rcases Multiset.mem_cons.mp member with rfl | other
      · exact entries _ enters
      · exact holds.2 task other
  | run runs =>
      obtain ⟨kept, goods⟩ := segments runs holds.1 (holds.2 _ (Multiset.mem_cons_self _ _))
      refine ⟨kept, ?_⟩
      intro task member
      rcases Multiset.mem_add.mp member with new | other
      · exact goods task (Multiset.mem_coe.mp new)
      · exact holds.2 task (Multiset.mem_cons_of_mem other)

/-- An invariant of the shared data, of what has been shown and of what the tasks own together
holds along the run when every segment keeps it, whatever the other tasks own.
-/
theorem owned_invariant [AddCommMonoid M] (owns : τ → M) (inv : σ → List ω → M → Prop)
    (run : (system entry segment).Run allow (start shared) pool) (initial : inv shared [] 0)
    (entries : ∀ task, entry task → owns task = 0)
    (segments
      : ∀ {before : TaskPool σ τ ω} {after : σ} {task : τ} {next : List τ} {shown : List ω}
          {others : M},
          (system entry segment).Run allow (start shared) before
          → task ∈ before.tasks
          → allow before (.run task shown)
          → segment before.shared task after next shown
          → inv before.shared before.shown (owns task + others)
          → inv after (before.shown ++ shown) ((next.map owns).sum + others))
    : inv pool.shared pool.shown (pool.owned owns) := by
  induction run with
  | refl => simpa [start, owned] using initial
  | tail before allowed step ih =>
      cases step with
      | enter enters => simpa [owned, entries _ enters] using ih
      | run runs =>
          unfold owned at ih ⊢
          rw [Multiset.map_cons, Multiset.sum_cons] at ih
          rw [Multiset.map_add, Multiset.sum_add, Multiset.map_coe, Multiset.sum_coe]
          exact segments before (Multiset.mem_cons_self _ _) allowed runs ih

section Lists

variable {start : TaskPool σ τ ω} {after : σ} {task other : τ} {tasks next : List τ}
  {before shown : List ω}

/-- A run goes on with a task that enters. -/
theorem run_enter (run : (system entry segment).Run allow start ⟨shared, tasks, before⟩)
    (enters : entry task) (allowed : allow ⟨shared, tasks, before⟩ (.enter task))
    : (system entry segment).Run allow start ⟨shared, (task :: tasks : List τ), before⟩ :=
  .tail (a := .enter task) run allowed (.enter enters)

/-- A run goes on with a segment of the first task. -/
theorem run_segment
    (run : (system entry segment).Run allow start ⟨shared, (task :: tasks : List τ), before⟩)
    (runs : segment shared task after next shown)
    (allowed : allow ⟨shared, (task :: tasks : List τ), before⟩ (.run task shown))
    : (system entry segment).Run allow start
        ⟨after, (next ++ tasks : List τ), before ++ shown⟩ := by
  have step
      : Step entry segment ⟨shared, task ::ₘ (tasks : Multiset τ), before⟩ (.run task shown)
          ⟨after, next + (tasks : Multiset τ), before ++ shown⟩ :=
    .run runs
  exact .tail (a := .run task shown) run allowed step

theorem run_swap
    (run
      : (system entry segment).Run allow start
          ⟨shared, (task :: other :: tasks : List τ), before⟩)
    : (system entry segment).Run allow start
        ⟨shared, (other :: task :: tasks : List τ), before⟩ := by
  rwa [Multiset.coe_eq_coe.mpr (List.Perm.swap other task tasks)] at run

end Lists

-----------------------------------------------------------------------------------------
-- Following one task
-----------------------------------------------------------------------------------------

/-- One task of a pool beside the others, so that it can be told apart from its equals. -/
structure Followed (σ τ ω : Type*) where
  others : TaskPool σ τ ω
  task : τ

/-- The pool of all tasks. -/
def Followed.whole (followed : Followed σ τ ω) : TaskPool σ τ ω :=
  { followed.others with tasks := followed.task ::ₘ followed.others.tasks }

/-- The moves of a pool in which one task is followed from one segment to the next. -/
inductive Followed.Step (entry : τ → Prop) (segment : σ → τ → σ → List τ → List ω → Prop)
    : Followed σ τ ω → Move τ ω → Followed σ τ ω → Prop
  | other {pool after : TaskPool σ τ ω} {move : Move τ ω} {task : τ}
    (step : TaskPool.Step entry segment pool move after)
    : Step entry segment ⟨pool, task⟩ move ⟨after, task⟩
  | own {shared after : σ} {rest : Multiset τ} {before shown : List ω} {task next : τ}
    (runs : segment shared task after [next] shown)
    : Step entry segment ⟨⟨shared, rest, before⟩, task⟩ (.run task shown)
        ⟨⟨after, rest, before ++ shown⟩, next⟩

/-- Pools with a followed task as a transition system. -/
def followedSystem (entry : τ → Prop) (segment : σ → τ → σ → List τ → List ω → Prop)
    : LabelledSystem (Followed σ τ ω) (Move τ ω) where
  Step := Followed.Step entry segment

/-- A move of the followed pool is one of the whole pool. -/
theorem Followed.Step.whole {followed next : Followed σ τ ω} {move : Move τ ω}
    (step : Followed.Step entry segment followed move next)
    : TaskPool.Step entry segment followed.whole move next.whole := by
  cases step with
  | other step =>
      cases step with
      | enter enters =>
          unfold Followed.whole
          rw [Multiset.cons_swap]
          exact .enter enters
      | run runs =>
          unfold Followed.whole
          rw [Multiset.cons_swap, ← Multiset.add_cons]
          exact .run runs
  | own runs => exact .run runs

end TaskPool
