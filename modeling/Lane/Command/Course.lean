import Lane.Command.Tasks

/-! The course of one command: an abstract machine that reads the milestones of the command, and
what it says about their numbers.
-/

namespace Lane

variable {ι : Type}

/-- How a command leaves the queue. -/
inductive Ending (ι : Type) where
  | rejected
  | resolved (handle : ι) (attempt : Nat) (succeeded : Bool)

/-- Where a command is in its course, with its lane and the number of the attempt. -/
inductive Course (ι : Type) where
  | unborn
  | enqueuing
  | pending (handle : ι) (attempt : Nat)
  | dequeued (handle : ι) (attempt : Nat)
  | running (handle : ι) (attempt : Nat)
  | backingOff (handle : ι) (attempt : Nat)
  | lettered (handle : ι) (attempt : Nat)
  | ended (ending : Ending ι)
  | dropped (ending : Ending ι)

namespace Course

/-- The steps of a course, for lanes that allow `maxRetries` and a queue with or without dead
letters.
-/
inductive Next (maxRetries : ι → Nat) (letters : Bool)
    : Course ι → Milestone ι → Course ι → Prop
  | accepted : Next maxRetries letters .unborn .accepted .enqueuing
  | rejected : Next maxRetries letters .enqueuing .rejected (.ended .rejected)
  | enqueued (handle : ι)
    : Next maxRetries letters .enqueuing (.enqueued handle) (.pending handle 0)
  | dequeued (handle : ι) (attempt : Nat)
    : Next maxRetries letters (.pending handle attempt) .dequeued (.dequeued handle attempt)
  | started (handle : ι) (attempt : Nat)
    : Next maxRetries letters (.dequeued handle attempt) .started (.running handle attempt)
  | delayed (handle : ι) {attempt : Nat} (retries : attempt < maxRetries handle)
    : Next maxRetries letters (.running handle attempt) .delayed
        (.backingOff handle (attempt + 1))
  | requeued (handle : ι) (attempt : Nat)
    : Next maxRetries letters (.backingOff handle attempt) .requeued (.pending handle attempt)
  | lettered (handle : ι) {attempt : Nat} (letter : DeadLetter) (present : letters = true)
    (exhausted : maxRetries handle ≤ attempt)
    : Next maxRetries letters (.running handle attempt) (.lettered letter)
        (.lettered handle attempt)
  | succeeded (handle : ι) (attempt : Nat) (value : Value)
    : Next maxRetries letters (.running handle attempt) (.sent (.ok value))
        (.ended (.resolved handle attempt true))
  | failed (handle : ι) {attempt : Nat} (error : LaneError) (absent : letters = false)
    (exhausted : maxRetries handle ≤ attempt)
    : Next maxRetries letters (.running handle attempt) (.sent (.error error))
        (.ended (.resolved handle attempt false))
  | failedLettered (handle : ι) (attempt : Nat) (error : LaneError) (present : letters = true)
    : Next maxRetries letters (.lettered handle attempt) (.sent (.error error))
        (.ended (.resolved handle attempt false))
  | dropped (ending : Ending ι)
    : Next maxRetries letters (.ended ending) .dropped (.dropped ending)

/-- Courses with the milestones that they have read. -/
def system (maxRetries : ι → Nat) (letters : Bool)
    : LabelledSystem (List (Milestone ι) × Course ι) (Milestone ι) where
  Step before milestone after :=
    Next maxRetries letters before.2 milestone after.2 ∧ after.1 = before.1 ++ [milestone]

/-- The milestones lead a command to this point of its course. -/
def Follows (maxRetries : ι → Nat) (letters : Bool) (word : List (Milestone ι))
    (course : Course ι)
    : Prop :=
  (system maxRetries letters).Reaches ([], .unborn) (word, course)

variable {maxRetries : ι → Nat} {letters : Bool} {word : List (Milestone ι)}
  {course after : Course ι} {milestone : Milestone ι}

theorem Follows.unborn : Follows maxRetries letters [] .unborn := .refl _

theorem Follows.next (follows : Follows maxRetries letters word course)
    (next : Next maxRetries letters course milestone after)
    : Follows maxRetries letters (word ++ [milestone]) after :=
  .tail follows trivial ⟨next, rfl⟩

end Course

-----------------------------------------------------------------------------------------
-- Counting milestones
-----------------------------------------------------------------------------------------

namespace Milestone

def isStarted : Milestone ι → Bool
  | .started => true
  | _ => false

def isSent : Milestone ι → Bool
  | .sent _ => true
  | _ => false

def isLettered : Milestone ι → Bool
  | .lettered _ => true
  | _ => false

def isRejected : Milestone ι → Bool
  | .rejected => true
  | _ => false

def isDropped : Milestone ι → Bool
  | .dropped => true
  | _ => false

end Milestone

/-- The attempts of a command that has left. -/
def Ending.attempts : Ending ι → Nat
  | .rejected => 0
  | .resolved _ attempt _ => attempt + 1

namespace Course

variable {maxRetries : ι → Nat} {letters : Bool} {word : List (Milestone ι)} {course : Course ι}

/-- The attempts that have started. -/
def attempts : Course ι → Nat
  | .unborn | .enqueuing => 0
  | .pending _ attempt | .dequeued _ attempt | .backingOff _ attempt => attempt
  | .running _ attempt | .lettered _ attempt => attempt + 1
  | .ended ending | .dropped ending => ending.attempts

/-- Whether the command succeeded, once its result is sent. -/
def succeeded : Course ι → Option Bool
  | .ended (.resolved _ _ succeeded) | .dropped (.resolved _ _ succeeded) => some succeeded
  | _ => none

/-- The dead letters that the command has left. -/
def deadLetters (letters : Bool) : Course ι → Nat
  | .lettered _ _ => 1
  | .ended (.resolved _ _ succeeded) | .dropped (.resolved _ _ succeeded) =>
      if letters && !succeeded then 1 else 0
  | _ => 0

def rejections : Course ι → Nat
  | .ended .rejected | .dropped .rejected => 1
  | _ => 0

def drops : Course ι → Nat
  | .dropped _ => 1
  | _ => 0

/-- The lane and the attempt of a command that was enqueued. -/
def lane : Course ι → Option (ι × Nat)
  | .pending handle attempt | .dequeued handle attempt | .running handle attempt
  | .backingOff handle attempt | .lettered handle attempt
  | .ended (.resolved handle attempt _) | .dropped (.resolved handle attempt _) =>
      some (handle, attempt)
  | _ => none

/-- A count of milestones that agrees with every step agrees along the course, by induction on
it.
-/
theorem Follows.count (follows : Follows maxRetries letters word course)
    {counts : Milestone ι → Bool} {value : Course ι → Nat} (initial : value .unborn = 0)
    (steps
      : ∀ {before milestone after},
          Next maxRetries letters before milestone after
          → value after = value before + (counts milestone).toNat)
    : word.countP counts = value course := by
  refine follows.invariant (fun state => state.1.countP counts = value state.2) ?_ ?_
  · simp [initial]
  · intro before milestone after same _ step
    obtain ⟨next, extended⟩ := step
    rw [extended, List.countP_append, same, steps next, List.countP_singleton]
    cases counts milestone <;> rfl

theorem Follows.started (follows : Follows maxRetries letters word course)
    : word.countP Milestone.isStarted = course.attempts := by
  apply follows.count rfl
  intro before milestone after next
  cases next <;> simp [attempts, Ending.attempts, Milestone.isStarted]

theorem Follows.sent (follows : Follows maxRetries letters word course)
    : word.countP Milestone.isSent = course.succeeded.toList.length := by
  apply follows.count rfl
  intro before milestone after next
  cases next with
  | dropped ending => cases ending <;> simp [succeeded, Milestone.isSent]
  | _ => simp [succeeded, Milestone.isSent]

theorem Follows.lettered (follows : Follows maxRetries letters word course)
    : word.countP Milestone.isLettered = course.deadLetters letters := by
  apply follows.count rfl
  intro before milestone after next
  cases next with
  | dropped ending => cases ending <;> simp [deadLetters, Milestone.isLettered]
  | _ => simp_all [deadLetters, Milestone.isLettered]

theorem Follows.rejected (follows : Follows maxRetries letters word course)
    : word.countP Milestone.isRejected = course.rejections := by
  apply follows.count rfl
  intro before milestone after next
  cases next with
  | dropped ending => cases ending <;> simp [rejections, Milestone.isRejected]
  | _ => simp [rejections, Milestone.isRejected]

theorem Follows.dropped (follows : Follows maxRetries letters word course)
    : word.countP Milestone.isDropped = course.drops := by
  apply follows.count rfl
  intro before milestone after next
  cases next <;> simp [drops, Milestone.isDropped]

/-- A sent result decides whether the command succeeded. -/
theorem Follows.result (follows : Follows maxRetries letters word course)
    : ∀ result, Milestone.sent result ∈ word → course.succeeded = some result.isOk := by
  refine follows.invariant
    (fun state =>
      ∀ result, Milestone.sent result ∈ state.1 → state.2.succeeded = some result.isOk) ?_ ?_
  · intro result member
    cases member
  · intro ⟨word, course⟩ milestone ⟨later, after⟩ decided _ ⟨next, extended⟩ result member
    simp only at next extended ⊢
    rw [extended, List.mem_append, List.mem_singleton] at member
    rcases member with earlier | rfl
    · have known := decided result earlier
      cases next with
      | dropped ending => cases ending <;> exact known
      | _ => cases known
    · cases next <;> rfl

/-- The lane of a command is the one that enqueued it. -/
theorem Follows.enqueued (follows : Follows maxRetries letters word course) (handle : ι)
    : Milestone.enqueued handle ∈ word ↔ ∃ attempt, course.lane = some (handle, attempt) := by
  refine follows.invariant
    (fun state =>
      Milestone.enqueued handle ∈ state.1
        ↔ ∃ attempt, state.2.lane = some (handle, attempt)) ?_ ?_
  · simp [lane]
  · intro ⟨word, course⟩ milestone ⟨later, after⟩ same _ ⟨next, extended⟩
    simp only at next extended same ⊢
    rw [extended, List.mem_append, List.mem_singleton, same]
    cases next with
    | enqueued other => simp [lane, eq_comm]
    | dropped ending => cases ending <;> simp [lane]
    | _ => simp [lane]

/-- A command stays within the retries that its lane allows. -/
theorem Follows.budget (follows : Follows maxRetries letters word course)
    : ∀ handle attempt, course.lane = some (handle, attempt) → attempt ≤ maxRetries handle := by
  refine follows.invariant
    (fun state =>
      ∀ handle attempt, state.2.lane = some (handle, attempt) → attempt ≤ maxRetries handle)
    ?_ ?_
  · intro handle attempt known
    cases known
  · intro ⟨word, course⟩ milestone ⟨later, after⟩ within _ ⟨next, _⟩ handle attempt known
    simp only at next within known
    cases next with
    | accepted => cases known
    | rejected => cases known
    | enqueued =>
        cases known
        exact Nat.zero_le _
    | delayed _ retries =>
        cases known
        exact retries
    | dropped ending => cases ending <;> exact within _ _ known
    | _ =>
        cases known
        exact within _ _ rfl

/-- The lane and the attempt of a command whose last attempt has failed. -/
def lastFailed : Course ι → Option (ι × Nat)
  | .lettered handle attempt
  | .ended (.resolved handle attempt false) | .dropped (.resolved handle attempt false) =>
      some (handle, attempt)
  | _ => none

theorem lane_of_lastFailed {handle : ι} {attempt : Nat}
    (known : course.lastFailed = some (handle, attempt))
    : course.lane = some (handle, attempt) ∧ course.attempts = attempt + 1 := by
  cases course with
  | lettered => cases known; exact ⟨rfl, rfl⟩
  | ended ending | dropped ending =>
      cases ending with
      | rejected => cases known
      | resolved _ _ succeeded =>
          cases succeeded with
          | false => cases known; exact ⟨rfl, rfl⟩
          | true => cases known
  | _ => cases known

theorem attempts_le {handle : ι} {attempt : Nat} (known : course.lane = some (handle, attempt))
    : course.attempts ≤ attempt + 1 := by
  cases course with
  | ended ending | dropped ending => cases ending <;> cases known <;> exact le_refl _
  | pending | dequeued | backingOff => cases known; exact Nat.le_succ _
  | running | lettered => cases known; exact le_refl _
  | _ => cases known

theorem deadLetters_of_succeeded {succeeded : Bool}
    (known : course.succeeded = some succeeded)
    : course.deadLetters letters = if letters && !succeeded then 1 else 0 := by
  cases course with
  | ended ending | dropped ending => cases ending <;> cases known <;> rfl
  | _ => cases known

theorem lastFailed_of_succeeded (known : course.succeeded = some false)
    : ∃ handle attempt, course.lastFailed = some (handle, attempt) := by
  cases course with
  | ended ending | dropped ending => cases ending <;> cases known <;> exact ⟨_, _, rfl⟩
  | _ => cases known

theorem lastFailed_of_deadLetters (letter : course.deadLetters letters ≠ 0)
    : ∃ handle attempt, course.lastFailed = some (handle, attempt) := by
  cases course with
  | lettered => exact ⟨_, _, rfl⟩
  | ended ending | dropped ending =>
      cases ending with
      | rejected => exact absurd rfl letter
      | resolved _ _ succeeded =>
          cases succeeded with
          | false => exact ⟨_, _, rfl⟩
          | true =>
              refine absurd ?_ letter
              simp [deadLetters]
  | _ => exact absurd rfl letter

/-- A command fails only when its lane allows no more retries. -/
theorem Follows.exhausted (follows : Follows maxRetries letters word course)
    : ∀ handle attempt,
        course.lastFailed = some (handle, attempt) → maxRetries handle ≤ attempt := by
  refine follows.invariant
    (fun state =>
      ∀ handle attempt,
        state.2.lastFailed = some (handle, attempt) → maxRetries handle ≤ attempt) ?_ ?_
  · intro handle attempt known
    cases known
  · intro ⟨word, course⟩ milestone ⟨later, after⟩ tired _ ⟨next, _⟩ handle attempt known
    simp only at next tired known
    cases next with
    | lettered _ _ _ exhausted =>
        cases known
        exact exhausted
    | failed _ _ _ exhausted =>
        cases known
        exact exhausted
    | failedLettered =>
        cases known
        exact tired _ _ rfl
    | dropped ending =>
        cases ending with
        | rejected => cases known
        | resolved _ _ succeeded => cases succeeded <;> exact tired _ _ known
    | _ => cases known

/-- A command whose last attempt has failed has had all attempts of its lane. -/
theorem Follows.attempts_of_lastFailed (follows : Follows maxRetries letters word course)
    {handle : ι} {attempt : Nat} (failed : course.lastFailed = some (handle, attempt))
    : Milestone.enqueued handle ∈ word
      ∧ word.countP Milestone.isStarted = maxRetries handle + 1 := by
  obtain ⟨lane, attempts⟩ := lane_of_lastFailed failed
  have least := follows.exhausted handle attempt failed
  have most := follows.budget handle attempt lane
  refine ⟨(follows.enqueued handle).mpr ⟨attempt, lane⟩, ?_⟩
  rw [follows.started, attempts]
  omega

end Course

end Lane
