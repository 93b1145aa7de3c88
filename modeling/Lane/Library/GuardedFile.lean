import Lane.Library.LabelledSystem
import Mathlib.Logic.Function.Basic

/-! A file behind a readers-writer lock. A call changes the memory under the write lock, and then
rewrites the file under a read lock that it holds until the file is written. Rewriting empties the
file first, and any number of calls may rewrite it at the same time. Some calls remove the file
instead, under no lock at all.
-/

/-- A memory that is kept in a file. Nobody can tell a missing file from a blank one. -/
structure GuardedFile (μ σ ω : Type*) where
  apply : μ → ω → μ
  snapshot : μ → σ
  removes : ω → Bool
  blank : σ

namespace GuardedFile

/-- A value, and how many changes it is the state after. -/
structure Version (σ : Type*) where
  order : Nat
  value : σ

/-- The file is whole when the call that emptied it last has written all of it: the others write
the same text. An unreadable file may also be there from the start.
-/
inductive Contents (ι σ : Type*) where
  | missing (order : Nat)
  | torn (by_ : Option ι)
  | whole (version : Version σ)

/-- How far a call has come. Its place is the number of its change. -/
inductive Stage (σ : Type*) where
  | idle
  | changed (place : Nat)
  | locked (place : Nat) (own : Version σ)
  | emptied (place : Nat) (own : Version σ)
  | written (place : Nat)
  | removing (place : Nat)
  | returned (place : Nat) (accepted : Bool)

namespace Stage

variable {σ : Type*}

def place : Stage σ → Option Nat
  | .idle => none
  | .changed place | .locked place _ | .emptied place _ | .written place | .removing place
  | .returned place _ => some place

/-- The text that a call has made and not written. -/
def own : Stage σ → Option (Version σ)
  | .locked _ own | .emptied _ own => some own
  | _ => none

/-- The call holds the read lock. -/
def holds : Stage σ → Bool
  | .locked _ _ | .emptied _ _ | .written _ => true
  | _ => false

/-- The call has emptied the file and holds the lock. -/
def rewrites : Stage σ → Bool
  | .emptied _ _ | .written _ => true
  | _ => false

/-- The call has done what it has to do to the file. -/
def done : Stage σ → Bool
  | .written _ | .returned _ true => true
  | _ => false

end Stage

/-- The memory with its changes so far, the file, and the calls in flight. -/
structure Shared (ι μ σ ω : Type*) where
  memory : μ
  applied : List ω
  file : Contents ι σ
  stage : ι → Stage σ

/-- The next step of a call. -/
inductive Move (ι ω : Type*) where
  | change (call : ι) (op : ω)
  | lock (call : ι)
  | empty (call : ι)
  | write (call : ι)
  | fail (call : ι)
  | finish (call : ι)
  | remove (call : ι)
  | removeFails (call : ι)

variable {ι μ σ ω : Type*} [DecidableEq ι]

/-- A call reaches another stage. -/
def Shared.reach (s : Shared ι μ σ ω) (call : ι) (stage : Stage σ) : Shared ι μ σ ω :=
  { s with stage := Function.update s.stage call stage }

/-- What a call's writing makes of the file. -/
def Contents.filled (call : ι) (own : Version σ) : Contents ι σ → Contents ι σ
  | .torn (some other) => if other = call then .whole own else .torn (some other)
  | contents => contents

/-- The readable contents. -/
def Contents.version (blank : σ) : Contents ι σ → Option (Version σ)
  | .missing order => some { order, value := blank }
  | .torn _ => none
  | .whole version => some version

/-- The steps of the calls. A change waits until no call holds the read lock. -/
inductive Step (g : GuardedFile μ σ ω)
    : Shared ι μ σ ω → Move ι ω → Shared ι μ σ ω → Prop
  | change {s : Shared ι μ σ ω} {op : ω} (call : ι) (idle : s.stage call = .idle)
    (free : ∀ other, (s.stage other).holds = false)
    : Step g s (.change call op)
        ({ s with memory := g.apply s.memory op, applied := s.applied ++ [op] }.reach call
          (if g.removes op then
            .removing (s.applied.length + 1)
          else
            .changed (s.applied.length + 1)))
  | lock {s : Shared ι μ σ ω} {place : Nat} (call : ι) (changed : s.stage call = .changed place)
    : Step g s (.lock call)
        (s.reach call (.locked place { order := s.applied.length, value := g.snapshot s.memory }))
  | empty {s : Shared ι μ σ ω} {place : Nat} {own : Version σ} (call : ι)
    (locked : s.stage call = .locked place own)
    : Step g s (.empty call)
        ({ s with file := .torn (some call) }.reach call (.emptied place own))
  | write {s : Shared ι μ σ ω} {place : Nat} {own : Version σ} (call : ι)
    (emptied : s.stage call = .emptied place own)
    : Step g s (.write call)
        ({ s with file := s.file.filled call own }.reach call (.written place))
  | fail {s : Shared ι μ σ ω} {place : Nat} {own : Version σ} (call : ι)
    (holds : s.stage call = .locked place own ∨ s.stage call = .emptied place own)
    : Step g s (.fail call) (s.reach call (.returned place false))
  | finish {s : Shared ι μ σ ω} {place : Nat} (call : ι) (written : s.stage call = .written place)
    : Step g s (.finish call) (s.reach call (.returned place true))
  | remove {s : Shared ι μ σ ω} {place : Nat} (call : ι)
    (removing : s.stage call = .removing place)
    : Step g s (.remove call)
        ({ s with file := .missing s.applied.length }.reach call (.returned place true))
  | removeFails {s : Shared ι μ σ ω} {place : Nat} (call : ι)
    (removing : s.stage call = .removing place)
    : Step g s (.removeFails call) (s.reach call (.returned place true))

/-- The interleavings of any number of calls. -/
def system (g : GuardedFile μ σ ω) : LabelledSystem (Shared ι μ σ ω) (Move ι ω) where
  Step := Step g

/-- No call has begun. -/
def Shared.start (memory : μ) (file : Option σ) : Shared ι μ σ ω :=
  { memory
    applied := []
    file :=
      match file with
      | some value => .whole { order := 0, value }
      | none => .torn none
    stage := fun _ => .idle }

-----------------------------------------------------------------------------------------
-- What the file holds
-----------------------------------------------------------------------------------------

/-- Files are removed only when the memory is blank, and then they are gone. -/
def RemovesBlank (g : GuardedFile μ σ ω) (s : Shared ι μ σ ω) : Move ι ω → Prop
  | .remove _ => g.snapshot s.memory = g.blank
  | .removeFails _ => False
  | _ => True

/-- The memory after the first changes. -/
def after (g : GuardedFile μ σ ω) (start : μ) (ops : List ω) (count : Nat) : μ :=
  (ops.take count).foldl g.apply start

/-- What is true of a call at a stage, beside the memory, the changes so far and the file. -/
structure Stands (g : GuardedFile μ σ ω) (memory : μ) (applied : List ω) (file : Contents ι σ)
    (call : ι) (stage : Stage σ)
    : Prop where
  placed : ∀ place, stage.place = some place → place ≤ applied.length
  own
    : ∀ own,
        stage.own = some own → own = { order := applied.length, value := g.snapshot memory }
  current
    : ∀ version,
        stage.rewrites = true
        → file.version g.blank = some version
        → version.order = applied.length
  torn
    : file = .torn (some call) → stage.own ≠ none ∨ ∃ place, stage = .returned place false
  untouched : file = .torn none → stage.done = false ∧ stage.rewrites = false
  acknowledged
    : ∀ place version,
        stage.done = true
        → stage.place = some place
        → file.version g.blank = some version
        → place ≤ version.order

/-- The invariant of the runs that remove blank files only. -/
structure Kept (g : GuardedFile μ σ ω) (start : μ) (first : Option σ) (s : Shared ι μ σ ω)
    : Prop where
  memory : s.memory = s.applied.foldl g.apply start
  stands : ∀ call, Stands g s.memory s.applied s.file call (s.stage call)
  numbered
    : ∀ place,
        0 < place → place ≤ s.applied.length → ∃ call, (s.stage call).place = some place
  version
    : ∀ version,
        s.file.version g.blank = some version
        → version.order ≤ s.applied.length
          ∧ (version.order = 0 ∧ first = some version.value
            ∨ version.value = g.snapshot (g.after start s.applied version.order))
  fresh
    : s.applied = []
      → (∀ call, s.stage call = .idle)
        ∧ s.file.version g.blank = first.map (fun value => { order := 0, value })

variable {g : GuardedFile μ σ ω} {start : μ} {first : Option σ} {s t : Shared ι μ σ ω}
  {call other : ι} {stage : Stage σ} {place : Nat} {own : Version σ} {op : ω}

omit [DecidableEq ι] in
theorem kept_start : Kept g start first (Shared.start (ι := ι) start first) where
  memory := rfl
  stands call :=
    { placed := fun _ known => by cases known
      own := fun _ known => by cases known
      current := fun _ rewrites => by cases rewrites
      torn := fun torn => by cases first <;> cases torn
      untouched := fun _ => ⟨rfl, rfl⟩
      acknowledged := fun _ _ done => by cases done }
  numbered place positive bounded := absurd bounded (Nat.not_le.mpr positive)
  version version readable := by
    cases first with
    | none => cases readable
    | some value =>
        cases readable
        exact ⟨Nat.le_refl 0, .inl ⟨rfl, rfl⟩⟩
  fresh _ := by
    refine ⟨fun _ => rfl, ?_⟩
    cases first <;> rfl

omit [DecidableEq ι] in
/-- A call that has begun has changed the memory. -/
theorem Kept.begun (kept : Kept g start first s) (known : (s.stage call).place = some place)
    : s.applied ≠ [] := by
  intro nothing
  rw [(kept.fresh nothing).1] at known
  cases known

/-- What every call but one and the stage that this one reaches satisfy, all calls satisfy. -/
theorem all_reach {P : ι → Stage σ → Prop} (reached : P call stage)
    (others : ∀ other, other ≠ call → P other (s.stage other)) (other : ι)
    : P other ((s.reach call stage).stage other) := by
  unfold Shared.reach
  by_cases same : other = call
  · subst same
    simpa using reached
  · simpa [Function.update_of_ne same] using others other same

/-- A call that goes on keeps its place taken. -/
theorem numbered_reach (known : (s.stage call).place = some place)
    (same : stage.place = some place) {number : Nat}
    (taken : ∃ call, (s.stage call).place = some number)
    : ∃ other, ((s.reach call stage).stage other).place = some number := by
  obtain ⟨other, taken⟩ := taken
  by_cases own : other = call
  · subst own
    refine ⟨other, ?_⟩
    rw [known] at taken
    simpa [Shared.reach, same] using taken
  · refine ⟨other, ?_⟩
    simpa [Shared.reach, Function.update_of_ne own] using taken

/-- A call goes on while the memory and the file stay as they are. -/
theorem Kept.reach (kept : Kept g start first s) (known : (s.stage call).place = some place)
    (same : stage.place = some place)
    (stands : Stands g s.memory s.applied s.file call stage)
    : Kept g start first (s.reach call stage) where
  memory := kept.memory
  stands := all_reach stands (fun other _ => kept.stands other)
  numbered number positive bounded :=
    numbered_reach known same (kept.numbered number positive bounded)
  version := kept.version
  fresh nothing := absurd nothing (kept.begun known)

-----------------------------------------------------------------------------------------
-- One step
-----------------------------------------------------------------------------------------

omit [DecidableEq ι] in
/-- A call that does not hold the lock stands as it did when the memory changes. -/
theorem Stands.grow {memory later : μ} {applied : List ω} {file : Contents ι σ}
    (stands : Stands g memory applied file call stage) (free : stage.holds = false)
    : Stands g later (applied ++ [op]) file call stage where
  placed place known := by
    have bounded := stands.placed place known
    rw [List.length_append]
    omega
  own own known := by cases stage <;> cases known <;> cases free
  current version rewrites := by cases stage <;> cases rewrites <;> cases free
  torn := stands.torn
  untouched := stands.untouched
  acknowledged := stands.acknowledged

/-- A change is made while nobody holds the lock, so that no text becomes old. -/
theorem kept_change (kept : Kept g start first s) (idle : s.stage call = .idle)
    (free : ∀ other, (s.stage other).holds = false)
    : Kept g start first
        ({ s with memory := g.apply s.memory op, applied := s.applied ++ [op] }.reach call
          (if g.removes op then
            .removing (s.applied.length + 1)
          else
            .changed (s.applied.length + 1))) := by
  have own := kept.stands call
  rw [idle] at own
  have lengths : (s.applied ++ [op]).length = s.applied.length + 1 := by simp
  generalize reached
    : (if g.removes op then
        Stage.removing (s.applied.length + 1)
      else
        .changed (s.applied.length + 1) : Stage σ)
      = stage
  have place : stage.place = some (s.applied.length + 1) := by
    rw [← reached]
    split <;> rfl
  have plain
      : stage.own = none ∧ stage.rewrites = false ∧ stage.done = false := by
    rw [← reached]
    split <;> exact ⟨rfl, rfl, rfl⟩
  constructor
  · change g.apply s.memory op = (s.applied ++ [op]).foldl g.apply start
    rw [List.foldl_append, ← kept.memory]
    rfl
  · refine all_reach ?_ (fun other _ => (kept.stands other).grow (free other))
    refine ⟨?_, ?_, ?_, ?_, ?_, ?_⟩
    · intro number known
      rw [place] at known
      obtain rfl := Option.some.inj known
      exact Nat.le_of_eq lengths.symm
    · intro text known
      rw [plain.1] at known
      cases known
    · intro version rewrites
      rw [plain.2.1] at rewrites
      cases rewrites
    · intro torn
      rcases own.torn torn with unwritten | ⟨_, returned⟩
      · exact absurd rfl unwritten
      · cases returned
    · exact fun _ => ⟨plain.2.2, plain.2.1⟩
    · intro number version done
      rw [plain.2.2] at done
      cases done
  · intro number positive bounded
    have bounded : number ≤ (s.applied ++ [op]).length := bounded
    by_cases newest : number = s.applied.length + 1
    · exact ⟨call, by simp [Shared.reach, place, newest]⟩
    · obtain ⟨other, taken⟩ := kept.numbered number positive (by omega)
      have different : other ≠ call := by
        rintro rfl
        rw [idle] at taken
        cases taken
      exact ⟨other, by simpa [Shared.reach, Function.update_of_ne different] using taken⟩
  · intro version readable
    obtain ⟨bounded, value⟩ := kept.version version readable
    refine ⟨?_, value.imp_right (fun value => ?_)⟩
    · change version.order ≤ (s.applied ++ [op]).length
      omega
    · change _ = g.snapshot (g.after start (s.applied ++ [op]) version.order)
      rw [value, after, after, List.take_append_of_le_length bounded]
  · exact fun nothing => absurd nothing (List.append_ne_nil_of_right_ne_nil _ (by simp))

/-- A call takes the lock and makes its text. -/
theorem kept_lock (kept : Kept g start first s) (changed : s.stage call = .changed place)
    : Kept g start first
        (s.reach call
          (.locked place { order := s.applied.length, value := g.snapshot s.memory })) := by
  have stands := kept.stands call
  rw [changed] at stands
  refine kept.reach (by rw [changed]; rfl) rfl ?_
  exact {
    placed := stands.placed
    own := fun own known => (Option.some.inj known).symm
    current := fun _ rewrites => by cases rewrites
    torn := fun torn => by
      rcases stands.torn torn with unwritten | ⟨_, returned⟩
      · exact absurd rfl unwritten
      · cases returned
    untouched := fun _ => ⟨rfl, rfl⟩
    acknowledged := fun _ _ done => by cases done }

/-- A call empties the file. -/
theorem kept_empty (kept : Kept g start first s) (locked : s.stage call = .locked place own)
    : Kept g start first
        ({ s with file := .torn (some call) }.reach call (.emptied place own)) := by
  have stands := kept.stands call
  rw [locked] at stands
  constructor
  · exact kept.memory
  · refine all_reach ?_ (fun other different => ?_)
    · exact {
        placed := stands.placed
        own := stands.own
        current := fun _ _ readable => by cases readable
        torn := fun _ => .inl (Option.some_ne_none own)
        untouched := fun torn => by cases torn
        acknowledged := fun _ _ done => by cases done }
    · exact {
        placed := (kept.stands other).placed
        own := (kept.stands other).own
        current := fun _ _ readable => by cases readable
        torn := fun torn => by
          cases torn
          exact absurd rfl different
        untouched := fun torn => by cases torn
        acknowledged := fun _ _ _ _ readable => by cases readable }
  · intro number positive bounded
    refine numbered_reach (s := { s with file := .torn (some call) }) ?_ rfl
      (kept.numbered number positive bounded)
    exact congrArg Stage.place locked
  · intro version readable
    cases readable
  · exact fun nothing => absurd nothing (kept.begun (congrArg Stage.place locked))

/-- A file is filled by the call that emptied it last, and stays as it is otherwise. -/
theorem filled_cases (call : ι) (own : Version σ) (file : Contents ι σ)
    : file = .torn (some call) ∧ file.filled call own = .whole own
      ∨ file ≠ .torn (some call) ∧ file.filled call own = file := by
  cases file with
  | missing order => exact .inr ⟨(by rintro ⟨⟩), rfl⟩
  | whole version => exact .inr ⟨(by rintro ⟨⟩), rfl⟩
  | torn by_ =>
      cases by_ with
      | none => exact .inr ⟨(by rintro ⟨⟩), rfl⟩
      | some other =>
          by_cases same : other = call
          · subst same
            exact .inl ⟨rfl, if_pos rfl⟩
          · refine .inr ⟨fun torn => ?_, if_neg same⟩
            cases torn
            exact same rfl

/-- A call writes the text, which is the newest one. -/
theorem kept_write (kept : Kept g start first s) (emptied : s.stage call = .emptied place own)
    : Kept g start first
        ({ s with file := s.file.filled call own }.reach call (.written place)) := by
  have stands := kept.stands call
  rw [emptied] at stands
  have newest := stands.own own rfl
  have known : (s.stage call).place = some place := congrArg Stage.place emptied
  rcases filled_cases call own s.file with ⟨torn, filled⟩ | ⟨other, filled⟩
  · rw [filled]
    have orders {version : Version σ}
        (readable : (Contents.whole own : Contents ι σ).version g.blank = some version)
        : version = { order := s.applied.length, value := g.snapshot s.memory } :=
      (Option.some.inj readable).symm.trans newest
    constructor
    · exact kept.memory
    · refine all_reach ?_ (fun other _ => ?_)
      · exact {
          placed := stands.placed
          own := fun _ known => by cases known
          current := fun _ _ readable => congrArg Version.order (orders readable)
          torn := fun torn => by cases torn
          untouched := fun torn => by cases torn
          acknowledged := fun place _ _ known readable => by
            rw [orders readable]
            exact stands.placed place known }
      · exact {
          placed := (kept.stands other).placed
          own := (kept.stands other).own
          current := fun _ _ readable => congrArg Version.order (orders readable)
          torn := fun torn => by cases torn
          untouched := fun torn => by cases torn
          acknowledged := fun place _ _ known readable => by
            rw [orders readable]
            exact (kept.stands other).placed place known }
    · intro number positive bounded
      exact numbered_reach (s := { s with file := .whole own }) known rfl
        (kept.numbered number positive bounded)
    · intro version readable
      rw [orders readable]
      refine ⟨Nat.le_refl _, .inr ?_⟩
      change g.snapshot s.memory = g.snapshot (g.after start s.applied s.applied.length)
      rw [kept.memory, after, List.take_length]
    · exact fun nothing => absurd nothing (kept.begun known)
  · rw [filled]
    refine kept.reach known rfl ?_
    exact {
      placed := stands.placed
      own := fun _ known => by cases known
      current := fun version _ => stands.current version rfl
      torn := fun torn => absurd torn other
      untouched := fun torn => by cases (stands.untouched torn).2
      acknowledged := fun place version _ known readable => by
        rw [stands.current version rfl readable]
        exact stands.placed place known }

/-- A call gives up: it has not opened the file, or the file stays empty. -/
theorem kept_fail (kept : Kept g start first s)
    (holds : s.stage call = .locked place own ∨ s.stage call = .emptied place own)
    : Kept g start first (s.reach call (.returned place false)) := by
  have known : (s.stage call).place = some place := by
    rcases holds with same | same <;> rw [same] <;> rfl
  refine kept.reach known rfl ?_
  exact {
    placed := fun number same => (kept.stands call).placed number (known.trans same)
    own := fun _ known => by cases known
    current := fun _ rewrites => by cases rewrites
    torn := fun _ => .inr ⟨place, rfl⟩
    untouched := fun _ => ⟨rfl, rfl⟩
    acknowledged := fun _ _ done => by cases done }

/-- A call that has written the file returns. -/
theorem kept_finish (kept : Kept g start first s) (written : s.stage call = .written place)
    : Kept g start first (s.reach call (.returned place true)) := by
  have stands := kept.stands call
  rw [written] at stands
  refine kept.reach (congrArg Stage.place written) rfl ?_
  exact {
    placed := stands.placed
    own := fun _ known => by cases known
    current := fun _ rewrites => by cases rewrites
    torn := fun torn => by
      rcases stands.torn torn with unwritten | ⟨_, returned⟩
      · exact absurd rfl unwritten
      · cases returned
    untouched := fun torn => by cases (stands.untouched torn).1
    acknowledged := fun place version _ => stands.acknowledged place version rfl }

/-- A call removes the file of a blank memory. -/
theorem kept_remove (kept : Kept g start first s) (removing : s.stage call = .removing place)
    (blank : g.snapshot s.memory = g.blank)
    : Kept g start first
        ({ s with file := .missing s.applied.length }.reach call (.returned place true)) := by
  have stands := kept.stands call
  rw [removing] at stands
  have orders {version : Version σ}
      (readable
        : (Contents.missing s.applied.length : Contents ι σ).version g.blank = some version)
      : version = { order := s.applied.length, value := g.blank } :=
    (Option.some.inj readable).symm
  constructor
  · exact kept.memory
  · refine all_reach ?_ (fun other _ => ?_)
    · exact {
        placed := stands.placed
        own := fun _ known => by cases known
        current := fun _ rewrites => by cases rewrites
        torn := fun torn => by cases torn
        untouched := fun torn => by cases torn
        acknowledged := fun place _ _ known readable => by
          rw [orders readable]
          exact stands.placed place known }
    · exact {
        placed := (kept.stands other).placed
        own := (kept.stands other).own
        current := fun _ _ readable => congrArg Version.order (orders readable)
        torn := fun torn => by cases torn
        untouched := fun torn => by cases torn
        acknowledged := fun place _ _ known readable => by
          rw [orders readable]
          exact (kept.stands other).placed place known }
  · intro number positive bounded
    exact numbered_reach (s := { s with file := .missing s.applied.length })
      (congrArg Stage.place removing) rfl (kept.numbered number positive bounded)
  · intro version readable
    rw [orders readable]
    refine ⟨Nat.le_refl _, .inr ?_⟩
    change g.blank = g.snapshot (g.after start s.applied s.applied.length)
    rw [← blank, kept.memory, after, List.take_length]
  · exact fun nothing => absurd nothing (kept.begun (congrArg Stage.place removing))

-----------------------------------------------------------------------------------------
-- Runs
-----------------------------------------------------------------------------------------

/-- The invariant holds along every run that removes blank files only. -/
theorem kept_run (run : g.system.Run g.RemovesBlank (Shared.start start first) s)
    : Kept g start first s := by
  refine run.invariant _ kept_start ?_
  intro s move t kept allowed step
  cases step with
  | change call idle free => exact kept_change kept idle free
  | lock call changed => exact kept_lock kept changed
  | empty call locked => exact kept_empty kept locked
  | write call emptied => exact kept_write kept emptied
  | fail call holds => exact kept_fail kept holds
  | finish call written => exact kept_finish kept written
  | remove call removing => exact kept_remove kept removing allowed
  | removeFails call removing => exact allowed.elim

omit [DecidableEq ι] in
/-- Where every call that has begun has returned Ok, the file holds the memory. -/
theorem Kept.settled (kept : Kept g start first s)
    (returned : ∀ call, s.stage call = .idle ∨ ∃ place, s.stage call = .returned place true)
    : s.applied = []
      ∨ ∃ version,
          s.file.version g.blank = some version ∧ version.value = g.snapshot s.memory := by
  by_cases nothing : s.applied = []
  · exact .inl nothing
  · have positive : 0 < s.applied.length := List.length_pos_iff.mpr nothing
    obtain ⟨last, taken⟩ := kept.numbered _ positive (Nat.le_refl _)
    have done : (s.stage last).done = true := by
      rcases returned last with idle | ⟨place, same⟩
      · rw [idle] at taken
        cases taken
      · rw [same]
        rfl
    cases readable : s.file.version g.blank with
    | none =>
        cases contents : s.file with
        | missing order =>
            rw [contents] at readable
            cases readable
        | whole version =>
            rw [contents] at readable
            cases readable
        | torn by_ =>
            cases by_ with
            | none =>
                have idle := ((kept.stands last).untouched contents).1
                rw [done] at idle
                cases idle
            | some other =>
                have torn := (kept.stands other).torn contents
                rcases returned other with same | ⟨place, same⟩ <;> rw [same] at torn
                · rcases torn with unwritten | ⟨_, failed⟩
                  · exact absurd rfl unwritten
                  · cases failed
                · rcases torn with unwritten | ⟨_, failed⟩
                  · exact absurd rfl unwritten
                  · cases failed
    | some version =>
        have newest := (kept.stands last).acknowledged _ version done taken readable
        obtain ⟨bounded, value⟩ := kept.version version readable
        have orders : version.order = s.applied.length := Nat.le_antisymm bounded newest
        rcases value with ⟨zero, _⟩ | value
        · omega
        · refine .inr ⟨version, rfl, ?_⟩
          rw [value, orders, after, List.take_length, ← kept.memory]

-----------------------------------------------------------------------------------------
-- Recovery
-----------------------------------------------------------------------------------------

/-- What a process that starts after a crash finds, up to what counts as the same memory. A readable
file is the state after the first so many changes, and no acknowledged change is missing among
them. A file is unreadable while the call that emptied it has not written it, or when it was so
from the start and no call has returned. Once all calls have returned the file is the memory.
-/
structure Recovers (g : GuardedFile μ σ ω) (same : μ → μ → Prop) (load : Option σ → μ)
    (first : Option σ) (s : Shared ι μ σ ω)
    : Prop where
  readable
    : ∀ version,
        s.file.version g.blank = some version
        → version.order ≤ s.applied.length
          ∧ same (load (some version.value)) (g.after (load first) s.applied version.order)
          ∧ ∀ call place, s.stage call = .returned place true → place ≤ version.order
  unreadable
    : s.file.version g.blank = none
      → (∃ call, (s.stage call).own ≠ none ∨ ∃ place, s.stage call = .returned place false)
        ∨ ∀ call place, s.stage call ≠ .returned place true
  settled
    : (∀ call, s.stage call = .idle ∨ ∃ place, s.stage call = .returned place true)
      → same (load ((s.file.version g.blank).map Version.value)) s.memory

omit [DecidableEq ι] in
/-- A file recovers when what is read back is the memory that was written. -/
theorem Kept.recovers {same : μ → μ → Prop} {load : Option σ → μ}
    (kept : Kept g (load first) first s) (refl : ∀ memory, same memory memory)
    (reads
      : ∀ count,
          same (load (some (g.snapshot (g.after (load first) s.applied count))))
            (g.after (load first) s.applied count))
    : Recovers g same load first s where
  readable version readable := by
    obtain ⟨bounded, value⟩ := kept.version version readable
    refine ⟨bounded, ?_, fun call place returned => ?_⟩
    · rcases value with ⟨zero, untouched⟩ | value
      · rw [zero, ← untouched]
        exact refl _
      · rw [value]
        exact reads _
    · refine (kept.stands call).acknowledged place version ?_ ?_ readable <;> rw [returned] <;> rfl
  unreadable unreadable := by
    cases contents : s.file with
    | missing order =>
        rw [contents] at unreadable
        cases unreadable
    | whole version =>
        rw [contents] at unreadable
        cases unreadable
    | torn by_ =>
        cases by_ with
        | some call => exact .inl ⟨call, (kept.stands call).torn contents⟩
        | none =>
            refine .inr (fun call place returned => ?_)
            have idle := ((kept.stands call).untouched contents).1
            rw [returned] at idle
            cases idle
  settled returned := by
    rcases kept.settled returned with nothing | ⟨version, readable, value⟩
    · have memory := kept.memory
      rw [nothing] at memory
      rw [(kept.fresh nothing).2, memory, Option.map_map]
      cases first <;> exact refl _
    · have whole := reads s.applied.length
      rw [after, List.take_length, ← kept.memory] at whole
      rw [readable, Option.map_some, value]
      exact whole

end GuardedFile
