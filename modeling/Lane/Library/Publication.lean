import Lane.Library.LabelledSystem
import Mathlib.Logic.Function.Basic

/-! Publishing a shared memory to one file from concurrent calls. Every call changes the
memory in one step and then takes a snapshot, writes it to a temporary file that all calls
share, and renames that file over the published one, each as a step of its own.
-/

namespace Publisher

/-- What a call still has to do once it has changed the memory: publish it and then return
whether the change was accepted, or return at once.
-/
inductive Outcome where
  | published (accepted : Bool)
  | quiet
  | refused
deriving DecidableEq

end Publisher

/-- Operations on a memory and the snapshots that are published. An operation that returns
without publishing leaves the snapshot as it was.
-/
structure Publisher (μ σ ω : Type*) where
  mutate : μ → ω → μ × Publisher.Outcome
  snapshot : μ → σ
  quiet : ∀ {memory op}, (mutate memory op).2 = .quiet →
    snapshot (mutate memory op).1 = snapshot memory

namespace Publisher

/-- A snapshot and its place among all snapshots taken, which only tells which of two
snapshots is older.
-/
structure Taken (σ : Type*) where
  order : Nat
  value : σ

/-- How far a call has come. -/
inductive Stage (σ : Type*) where
  | idle
  | mutated (accepted : Bool)
  | snapped (accepted : Bool) (own : Taken σ)
  | written (accepted : Bool) (own : Taken σ)
  | returned (accepted : Bool) (own : Option (Taken σ))

/-- The snapshot that a call has taken. A call whose rename failed has lost it. -/
def Stage.own {σ : Type*} : Stage σ → Option (Taken σ)
  | .snapped _ own | .written _ own => some own
  | .returned _ own => own
  | _ => none

/-- The memory, the two files, and the calls in flight. -/
structure Shared (ι μ σ : Type*) where
  memory : μ
  taken : Nat
  tmp : Option (Taken σ)
  file : Option (Taken σ)
  stage : ι → Stage σ

/-- The next step of a call. -/
inductive Move (ι ω : Type*) where
  | mutate (call : ι) (op : ω)
  | snapshot (call : ι)
  | write (call : ι)
  | rename (call : ι)

variable {ι μ σ ω : Type*} [DecidableEq ι]

/-- A call reaches another stage. -/
def Shared.reach (s : Shared ι μ σ) (call : ι) (stage : Stage σ) : Shared ι μ σ :=
  { s with stage := Function.update s.stage call stage }

/-- The stage at which a call is right after its change of the memory. -/
def Outcome.stage : Outcome → Stage σ
  | .published accepted => .mutated accepted
  | .quiet => .returned true none
  | .refused => .returned false none

/-- One step of a call, when it is at that step. A rename fails when the temporary file is
not there.
-/
def move (p : Publisher μ σ ω) (s : Shared ι μ σ) : Move ι ω → Option (Shared ι μ σ)
  | .mutate call op =>
      match s.stage call with
      | .idle =>
          let (memory, outcome) := p.mutate s.memory op
          some ({ s with memory }.reach call (Outcome.stage outcome))
      | _ => none
  | .snapshot call =>
      match s.stage call with
      | .mutated accepted =>
          let own : Taken σ := { order := s.taken + 1, value := p.snapshot s.memory }
          some ({ s with taken := own.order }.reach call (.snapped accepted own))
      | _ => none
  | .write call =>
      match s.stage call with
      | .snapped accepted own =>
          some ({ s with tmp := some own }.reach call (.written accepted own))
      | _ => none
  | .rename call =>
      match s.stage call with
      | .written accepted own =>
          match s.tmp with
          | some published =>
              some
                ({ s with tmp := none, file := some published }.reach call
                  (.returned accepted (some own)))
          | none => some (s.reach call (.returned false none))
      | _ => none

/-- The interleavings of any number of calls. -/
def system (p : Publisher μ σ ω) : LabelledSystem (Shared ι μ σ) (Move ι ω) where
  Step s action t := p.move s action = some t

/-- No call has begun. -/
def Shared.start (memory : μ) (file : Option σ) : Shared ι μ σ :=
  { memory
    taken := 0
    tmp := none
    file := file.map (fun value => { order := 0, value })
    stage := fun _ => .idle }

-----------------------------------------------------------------------------------------
-- What the published file promises
-----------------------------------------------------------------------------------------

/-- The call returned its acceptance after it published this snapshot. -/
def Acknowledged (s : Shared ι μ σ) (own : Taken σ) : Prop :=
  ∃ call, s.stage call = .returned true (some own)

/-- No acknowledged snapshot is newer than the published one. -/
def KeepsAcknowledged (s : Shared ι μ σ) : Prop :=
  ∀ own, Acknowledged s own → ∃ published, s.file = some published ∧ own.order ≤ published.order

/-- Every call that has begun has returned its acceptance. -/
def AllAccepted (s : Shared ι μ σ) : Prop :=
  ∀ call, s.stage call = .idle ∨ ∃ own, s.stage call = .returned true own

/-- A rename publishes a snapshot that is at least as new as the call's own one, if the call
then returns its acceptance, and as every acknowledged one.
-/
def PublishesNewest (s : Shared ι μ σ) : Move ι ω → Prop
  | .rename call =>
      ∀ published own,
        s.tmp = some published
        → s.stage call = .written true own ∨ Acknowledged s own
        → own.order ≤ published.order
  | _ => True

/-- A memory change is not in a snapshot yet, or its call reported an error. -/
def Unsettled (s : Shared ι μ σ) : Prop :=
  ∃ call, (∃ accepted, s.stage call = .mutated accepted) ∨ ∃ own, s.stage call = .returned false own

/-- The snapshot is in one of the files or with a call. -/
def Present (s : Shared ι μ σ) (snapshot : Taken σ) : Prop :=
  s.tmp = some snapshot ∨ s.file = some snapshot ∨ ∃ call, (s.stage call).own = some snapshot

/-- The invariant of the runs whose renames publish the newest snapshot. -/
structure Durable (p : Publisher μ σ ω) (start : σ) (s : Shared ι μ σ) : Prop where
  bounded : ∀ snapshot, Present s snapshot → snapshot.order ≤ s.taken
  numbered : ∀ call own, (s.stage call).own = some own → 0 < own.order
  current
    : ∀ snapshot,
        Present s snapshot
        → snapshot.order = s.taken
        → snapshot.order = 0 ∨ Unsettled s ∨ snapshot.value = p.snapshot s.memory
  held
    : s.taken = 0 ∨ Unsettled s ∨ ∃ call own, (s.stage call).own = some own ∧ own.order = s.taken
  untouched : s.taken = 0 → Unsettled s ∨ p.snapshot s.memory = start
  acknowledged : KeepsAcknowledged s

-----------------------------------------------------------------------------------------
-- One step
-----------------------------------------------------------------------------------------

variable {p : Publisher μ σ ω} {start : σ} {s t : Shared ι μ σ} {call : ι} {stage : Stage σ}
  {snapshot : Taken σ}

theorem reach_self (reached : t.stage = Function.update s.stage call stage)
    : t.stage call = stage := by
  rw [reached, Function.update_self]

theorem reach_ne {other : ι} (reached : t.stage = Function.update s.stage call stage)
    (different : other ≠ call)
    : t.stage other = s.stage other := by
  rw [reached, Function.update_of_ne different]

/-- A change stays unsettled while its own call does not take a snapshot. -/
theorem Unsettled.reach (unsettled : Unsettled s)
    (reached : t.stage = Function.update s.stage call stage)
    (unchanged : ∀ accepted, s.stage call ≠ .mutated accepted)
    (unfailed : ∀ own, s.stage call ≠ .returned false own)
    : Unsettled t := by
  obtain ⟨other, status⟩ := unsettled
  have different : other ≠ call := by
    rintro rfl
    rcases status with ⟨accepted, same⟩ | ⟨own, same⟩
    · exact unchanged accepted same
    · exact unfailed own same
  refine ⟨other, ?_⟩
  rw [reach_ne reached different]
  exact status

/-- Acknowledgements of the other calls are as they were. -/
theorem acknowledged_reach (reached : t.stage = Function.update s.stage call stage)
    (acknowledged : Acknowledged t snapshot)
    : stage = .returned true (some snapshot) ∨ Acknowledged s snapshot := by
  obtain ⟨other, returned⟩ := acknowledged
  by_cases same : other = call
  · subst same
    exact .inl ((reach_self reached).symm.trans returned)
  · exact .inr ⟨other, (reach_ne reached same).symm.trans returned⟩

/-- A snapshot that a call still has, was with the call before or is the one it reached. -/
theorem own_reach {other : ι} (reached : t.stage = Function.update s.stage call stage)
    (own : (t.stage other).own = some snapshot)
    : stage.own = some snapshot ∨ (s.stage other).own = some snapshot := by
  by_cases same : other = call
  · subst same
    exact .inl (reach_self reached ▸ own)
  · exact .inr (reach_ne reached same ▸ own)

theorem durable_mutate {op : ω} (durable : Durable p start s) (idle : s.stage call = .idle)
    : Durable p start
        ({ s with memory := (p.mutate s.memory op).1 }.reach call (p.mutate s.memory op).2.stage) := by
  generalize mutated : p.mutate s.memory op = result
  obtain ⟨memory, outcome⟩ := result
  have reached
      : (({ s with memory }.reach call outcome.stage) : Shared ι μ σ).stage
        = Function.update s.stage call outcome.stage :=
    rfl
  have unsettled (before : Unsettled s) : Unsettled ({ s with memory }.reach call outcome.stage) :=
    before.reach reached (by simp [idle]) (by simp [idle])
  have ownNone : (outcome.stage : Stage σ).own = none := by cases outcome <;> rfl
  have present {snapshot : Taken σ}
      (now : Present ({ s with memory }.reach call outcome.stage) snapshot)
      : Present s snapshot := by
    rcases now with inTmp | inFile | ⟨other, own⟩
    · exact .inl inTmp
    · exact .inr (.inl inFile)
    · rcases own_reach reached own with new | old
      · rw [ownNone] at new
        cases new
      · exact .inr (.inr ⟨other, old⟩)
  -- a quiet operation shows nothing new, all others leave the change unsettled
  have changed
      : Unsettled ({ s with memory }.reach call outcome.stage)
        ∨ p.snapshot memory = p.snapshot s.memory := by
    cases outcome with
    | published accepted => exact .inl ⟨call, .inl ⟨accepted, reach_self reached⟩⟩
    | refused => exact .inl ⟨call, .inr ⟨none, reach_self reached⟩⟩
    | quiet =>
        have same := p.quiet (congrArg Prod.snd mutated)
        rw [mutated] at same
        exact .inr same
  refine ⟨fun _ now => durable.bounded _ (present now), ?_, ?_, ?_, ?_, ?_⟩
  · intro other own has
    rcases own_reach reached has with new | old
    · rw [ownNone] at new
      cases new
    · exact durable.numbered other own old
  · intro snapshot now newest
    rcases durable.current snapshot (present now) newest with zero | before | shown
    · exact .inl zero
    · exact .inr (.inl (unsettled before))
    · rcases changed with unsettled | same
      · exact .inr (.inl unsettled)
      · exact .inr (.inr (shown.trans same.symm))
  · rcases durable.held with zero | before | ⟨other, own, has, newest⟩
    · exact .inl zero
    · exact .inr (.inl (unsettled before))
    · refine .inr (.inr ⟨other, own, ?_, newest⟩)
      rw [reach_ne reached (by rintro rfl; rw [idle] at has; cases has)]
      exact has
  · intro zero
    rcases durable.untouched zero with before | shown
    · exact .inl (unsettled before)
    · exact changed.imp_right (fun same => same.trans shown)
  · intro own acknowledged
    rcases acknowledged_reach reached acknowledged with new | old
    · have lost := congrArg Stage.own new
      rw [ownNone] at lost
      cases lost
    · exact durable.acknowledged own old

theorem durable_snapshot {accepted : Bool} (durable : Durable p start s)
    : Durable p start
        ({ s with taken := s.taken + 1 }.reach call
          (.snapped accepted { order := s.taken + 1, value := p.snapshot s.memory })) := by
  generalize after_eq : ({ s with taken := s.taken + 1 } : Shared ι μ σ).reach call
    (.snapped accepted { order := s.taken + 1, value := p.snapshot s.memory }) = t
  have reached
      : t.stage
        = Function.update s.stage call
            (.snapped accepted { order := s.taken + 1, value := p.snapshot s.memory }) := by
    rw [← after_eq]
    rfl
  have files : t.tmp = s.tmp ∧ t.file = s.file ∧ t.memory = s.memory ∧ t.taken = s.taken + 1 := by
    rw [← after_eq]
    exact ⟨rfl, rfl, rfl, rfl⟩
  have present {snapshot : Taken σ} (now : Present t snapshot)
      : Present s snapshot
        ∨ snapshot.order = s.taken + 1 ∧ snapshot.value = p.snapshot s.memory := by
    rcases now with inTmp | inFile | ⟨other, own⟩
    · exact .inl (.inl (files.1 ▸ inTmp))
    · exact .inl (.inr (.inl (files.2.1 ▸ inFile)))
    · rcases own_reach reached own with new | old
      · obtain rfl := Option.some.inj new
        exact .inr ⟨rfl, rfl⟩
      · exact .inl (.inr (.inr ⟨other, old⟩))
  refine ⟨?_, ?_, ?_, ?_, ?_, ?_⟩
  · intro snapshot now
    rw [files.2.2.2]
    rcases present now with old | ⟨new, _⟩
    · exact Nat.le_succ_of_le (durable.bounded snapshot old)
    · exact Nat.le_of_eq new
  · intro other own has
    rcases own_reach reached has with new | old
    · obtain rfl := Option.some.inj new
      exact Nat.succ_pos _
    · exact durable.numbered other own old
  · intro snapshot now newest
    rw [files.2.2.2] at newest
    rcases present now with old | ⟨_, shown⟩
    · have older := durable.bounded snapshot old
      omega
    · exact .inr (.inr (by rw [files.2.2.1, shown]))
  · exact .inr (.inr ⟨call, _, by rw [reach_self reached]; rfl, files.2.2.2.symm⟩)
  · intro zero
    rw [files.2.2.2] at zero
    cases zero
  · intro own acknowledged
    rcases acknowledged_reach reached acknowledged with new | old
    · cases new
    · rw [files.2.1]
      exact durable.acknowledged own old

omit [DecidableEq ι] in
/-- A step that keeps the memory and the number of snapshots keeps the invariant: what is in
the files was there or is a call's, and a call's snapshot is kept or its error reported.
-/
theorem Durable.of_kept (durable : Durable p start s)
    (same : t.memory = s.memory ∧ t.taken = s.taken)
    (present : ∀ {snapshot}, Present t snapshot → Present s snapshot)
    (owns : ∀ {call own}, (t.stage call).own = some own → (s.stage call).own = some own)
    (keeps
      : ∀ {call own}, (s.stage call).own = some own → (t.stage call).own = some own ∨ Unsettled t)
    (unsettled : Unsettled s → Unsettled t) (acknowledged : KeepsAcknowledged t)
    : Durable p start t := by
  obtain ⟨memory, taken⟩ := same
  refine ⟨?_, fun call own has => durable.numbered call own (owns has), ?_, ?_, ?_, acknowledged⟩
  · rw [taken]
    exact fun snapshot now => durable.bounded snapshot (present now)
  · rw [memory, taken]
    intro snapshot now newest
    exact (durable.current snapshot (present now) newest).imp_right (Or.imp_left unsettled)
  · rw [taken]
    rcases durable.held with zero | before | ⟨call, own, has, newest⟩
    · exact .inl zero
    · exact .inr (.inl (unsettled before))
    · rcases keeps has with kept | lost
      · exact .inr (.inr ⟨call, own, kept, newest⟩)
      · exact .inr (.inl lost)
  · rw [memory, taken]
    exact fun zero => (durable.untouched zero).imp_left unsettled

/-- A call whose snapshot stays its own. -/
theorem own_kept {own : Option (Taken σ)} (reached : t.stage = Function.update s.stage call stage)
    (before : (s.stage call).own = own) (after : stage.own = own) (other : ι)
    : (t.stage other).own = (s.stage other).own := by
  by_cases same : other = call
  · subst same
    rw [reach_self reached, before, after]
  · rw [reach_ne reached same]

theorem durable_write {accepted : Bool} {own : Taken σ} (durable : Durable p start s)
    (snapped : s.stage call = .snapped accepted own)
    : Durable p start ({ s with tmp := some own }.reach call (.written accepted own)) := by
  generalize after_eq
    : ({ s with tmp := some own } : Shared ι μ σ).reach call (.written accepted own) = t
  have reached : t.stage = Function.update s.stage call (.written accepted own) := by
    rw [← after_eq]
    rfl
  have files : t.tmp = some own ∧ t.file = s.file ∧ t.memory = s.memory ∧ t.taken = s.taken := by
    rw [← after_eq]
    exact ⟨rfl, rfl, rfl, rfl⟩
  have ownBefore : (s.stage call).own = some own := by
    rw [snapped]
    rfl
  have kept := own_kept reached ownBefore rfl
  refine durable.of_kept files.2.2 ?_ (fun has => kept _ ▸ has) (fun has => .inl (kept _ ▸ has)) ?_ ?_
  · rintro snapshot (inTmp | inFile | ⟨other, has⟩)
    · obtain rfl := Option.some.inj (files.1.symm.trans inTmp)
      exact .inr (.inr ⟨call, ownBefore⟩)
    · exact .inr (.inl (files.2.1 ▸ inFile))
    · exact .inr (.inr ⟨other, kept other ▸ has⟩)
  · exact fun before => before.reach reached (by simp [snapped]) (by simp [snapped])
  · intro own acknowledged
    rcases acknowledged_reach reached acknowledged with new | old
    · cases new
    · rw [files.2.1]
      exact durable.acknowledged own old

theorem durable_rename {accepted : Bool} {own published : Taken σ} (durable : Durable p start s)
    (written : s.stage call = .written accepted own) (stored : s.tmp = some published)
    (newest : PublishesNewest s (.rename call : Move ι ω))
    : Durable p start
        ({ s with tmp := none, file := some published }.reach call
          (.returned accepted (some own))) := by
  generalize after_eq
    : ({ s with tmp := none, file := some published } : Shared ι μ σ).reach call
        (.returned accepted (some own)) = t
  have reached : t.stage = Function.update s.stage call (.returned accepted (some own)) := by
    rw [← after_eq]
    rfl
  have files
      : t.tmp = none ∧ t.file = some published ∧ t.memory = s.memory ∧ t.taken = s.taken := by
    rw [← after_eq]
    exact ⟨rfl, rfl, rfl, rfl⟩
  have ownBefore : (s.stage call).own = some own := by
    rw [written]
    rfl
  have kept := own_kept reached ownBefore rfl
  refine durable.of_kept files.2.2 ?_ (fun has => kept _ ▸ has) (fun has => .inl (kept _ ▸ has)) ?_ ?_
  · rintro snapshot (inTmp | inFile | ⟨other, has⟩)
    · rw [files.1] at inTmp
      cases inTmp
    · obtain rfl := Option.some.inj (files.2.1.symm.trans inFile)
      exact .inl stored
    · exact .inr (.inr ⟨other, kept other ▸ has⟩)
  · exact fun before => before.reach reached (by simp [written]) (by simp [written])
  · intro shown acknowledged
    refine ⟨published, files.2.1, newest published shown stored ?_⟩
    rcases acknowledged_reach reached acknowledged with new | old
    · obtain ⟨rfl, same⟩ := Stage.returned.inj new
      obtain rfl := Option.some.inj same
      exact .inl written
    · exact .inr old

/-- The error of a failed rename is reported. -/
theorem durable_rename_failed (durable : Durable p start s)
    : Durable p start (s.reach call (.returned false none)) := by
  generalize after_eq : s.reach call (.returned false none) = t
  have reached : t.stage = Function.update s.stage call (.returned false none) := by
    rw [← after_eq]
    rfl
  have files : t.tmp = s.tmp ∧ t.file = s.file ∧ t.memory = s.memory ∧ t.taken = s.taken := by
    rw [← after_eq]
    exact ⟨rfl, rfl, rfl, rfl⟩
  have failed : Unsettled t := ⟨call, .inr ⟨none, reach_self reached⟩⟩
  have owns {other : ι} {held : Taken σ} (has : (t.stage other).own = some held)
      : (s.stage other).own = some held := by
    rcases own_reach reached has with new | old
    · cases new
    · exact old
  refine durable.of_kept files.2.2 ?_ owns (fun _ => .inr failed) (fun _ => failed) ?_
  · rintro snapshot (inTmp | inFile | ⟨other, has⟩)
    · exact .inl (files.1 ▸ inTmp)
    · exact .inr (.inl (files.2.1 ▸ inFile))
    · exact .inr (.inr ⟨other, owns has⟩)
  · intro shown acknowledged
    rcases acknowledged_reach reached acknowledged with new | old
    · cases new
    · rw [files.2.1]
      exact durable.acknowledged shown old

/-- Every step that publishes the newest snapshot keeps the invariant, by cases on the step. -/
theorem durable_move {action : Move ι ω} (durable : Durable p start s)
    (newest : PublishesNewest s action) (moves : p.move s action = some t)
    : Durable p start t := by
  cases action with
  | mutate call op =>
      cases stage : s.stage call <;> simp only [move, stage, reduceCtorEq] at moves
      obtain rfl := Option.some.inj moves
      exact durable_mutate durable stage
  | snapshot call =>
      cases stage : s.stage call <;> simp only [move, stage, reduceCtorEq] at moves
      obtain rfl := Option.some.inj moves
      exact durable_snapshot durable
  | write call =>
      cases stage : s.stage call <;> simp only [move, stage, reduceCtorEq] at moves
      obtain rfl := Option.some.inj moves
      exact durable_write durable stage
  | rename call =>
      cases stage : s.stage call <;> simp only [move, stage, reduceCtorEq] at moves
      cases stored : s.tmp with
      | some published =>
          simp only [stored] at moves
          obtain rfl := Option.some.inj moves
          exact durable_rename durable stage stored newest
      | none =>
          simp only [stored] at moves
          obtain rfl := Option.some.inj moves
          exact durable_rename_failed durable

-----------------------------------------------------------------------------------------
-- Runs
-----------------------------------------------------------------------------------------

omit [DecidableEq ι] in
theorem durable_start (memory : μ) (file : Option σ)
    : Durable p (p.snapshot memory) (Shared.start memory file : Shared ι μ σ) := by
  have present {snapshot : Taken σ}
      (now : Present (Shared.start memory file : Shared ι μ σ) snapshot)
      : snapshot.order = 0 := by
    rcases now with inTmp | inFile | ⟨call, own⟩
    · cases inTmp
    · obtain ⟨value, _, rfl⟩ := Option.map_eq_some_iff.mp inFile
      rfl
    · cases own
  refine ⟨fun _ now => Nat.le_of_eq (present now), ?_, fun _ now _ => .inl (present now), .inl rfl,
    fun _ => .inr rfl, ?_⟩
  · intro call own has
    cases has
  · rintro own ⟨call, returned⟩
    cases returned

/-- Along a run whose renames publish the newest snapshot the invariant holds. -/
theorem durable_run {memory : μ} {file : Option σ}
    (run : p.system.Run PublishesNewest (Shared.start memory file : Shared ι μ σ) s)
    : Durable p (p.snapshot memory) s :=
  run.invariant (Durable p (p.snapshot memory)) (durable_start memory file)
    (fun durable newest moves => durable_move durable newest moves)

omit [DecidableEq ι] in
theorem AllAccepted.not_unsettled (accepted : AllAccepted s) : ¬ Unsettled s := by
  rintro ⟨call, ⟨flag, mutated⟩ | ⟨own, failed⟩⟩
  · rcases accepted call with idle | ⟨_, returned⟩
    · rw [idle] at mutated
      cases mutated
    · rw [returned] at mutated
      cases mutated
  · rcases accepted call with idle | ⟨_, returned⟩
    · rw [idle] at failed
      cases failed
    · rw [returned] at failed
      cases failed

omit [DecidableEq ι] in
/-- Once all calls have returned their acceptance, the file is the snapshot of the memory,
or nothing was published and the snapshot is the one at the start.
-/
theorem Durable.published (durable : Durable p start s) (accepted : AllAccepted s)
    : (s.taken = 0 ∧ p.snapshot s.memory = start)
      ∨ s.file.map Taken.value = some (p.snapshot s.memory) := by
  rcases durable.held with zero | unsettled | ⟨call, own, has, newest⟩
  · exact .inl ⟨zero, (durable.untouched zero).resolve_left accepted.not_unsettled⟩
  · exact absurd unsettled accepted.not_unsettled
  · have returned : s.stage call = .returned true (some own) := by
      rcases accepted call with idle | ⟨kept, returned⟩
      · rw [idle] at has
        cases has
      · rw [returned] at has ⊢
        exact congrArg _ has
    obtain ⟨shown, inFile, newer⟩ := durable.acknowledged own ⟨call, returned⟩
    have older := durable.bounded shown (.inr (.inl inFile))
    have positive := durable.numbered call own has
    rcases durable.current shown (.inr (.inl inFile)) (by omega) with zero | unsettled | value
    · omega
    · exact absurd unsettled accepted.not_unsettled
    · exact .inr (by rw [inFile, Option.map_some, value])

-----------------------------------------------------------------------------------------
-- Runs of given steps
-----------------------------------------------------------------------------------------

/-- Takes steps one after the other. -/
def moves (p : Publisher μ σ ω)
    : Shared ι μ σ → List (Move ι ω) → Option (Shared ι μ σ)
  | s, [] => some s
  | s, action :: rest => (p.move s action).bind (fun t => moves p t rest)

theorem reaches_moves {actions : List (Move ι ω)} (moved : moves p s actions = some t)
    : p.system.Reaches s t := by
  induction actions generalizing s with
  | nil =>
      obtain rfl := Option.some.inj moved
      exact .refl s
  | cons action rest ih =>
      obtain ⟨middle, first, later⟩ := Option.bind_eq_some_iff.mp moved
      exact LabelledSystem.Run.trans (.single trivial first) (ih later)

omit [DecidableEq ι] in
/-- The newest snapshot is the one in the temporary file. -/
theorem publishesNewest_of_current {action : Move ι ω} (durable : Durable p start s)
    (current : s.tmp.all (fun stored => s.taken ≤ stored.order) = true)
    : PublishesNewest s action := by
  cases action with
  | rename call =>
      intro published own stored has
      have held : (∃ call, (s.stage call).own = some own) := by
        rcases has with written | ⟨other, returned⟩
        · exact ⟨call, by rw [written]; rfl⟩
        · exact ⟨other, by rw [returned]; rfl⟩
      have bounded := durable.bounded own (.inr (.inr held))
      rw [stored] at current
      have newest : s.taken ≤ published.order := by simpa using current
      omega
  | mutate | snapshot | write => trivial

/-- Takes steps one after the other while each keeps the newest snapshot in the temporary
file until it is renamed.
-/
def movesInOrder (p : Publisher μ σ ω)
    : Shared ι μ σ → List (Move ι ω) → Option (Shared ι μ σ)
  | s, [] => some s
  | s, action :: rest =>
      if s.tmp.all (fun stored => s.taken ≤ stored.order) then
        (p.move s action).bind (fun t => movesInOrder p t rest)
      else
        none

theorem run_movesInOrder {actions : List (Move ι ω)} (durable : Durable p start s)
    (moved : movesInOrder p s actions = some t)
    : p.system.Run PublishesNewest s t := by
  induction actions generalizing s with
  | nil =>
      obtain rfl := Option.some.inj moved
      exact .refl s
  | cons action rest ih =>
      simp only [movesInOrder] at moved
      split at moved
      · next current =>
          obtain ⟨middle, first, later⟩ := Option.bind_eq_some_iff.mp moved
          have newest : PublishesNewest s action := publishesNewest_of_current durable current
          exact LabelledSystem.Run.trans (.single newest first)
            (ih (durable_move durable newest first) later)
      · cases moved

end Publisher
