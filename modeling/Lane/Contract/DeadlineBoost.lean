import Lane.Command.Lane
import Lane.Contract.LongDurations
import Mathlib.Algebra.Order.Group.Unbundled.Basic
import Mathlib.Data.List.MinMax
import Mathlib.Order.Nat

/-! Deadline boosts: which interval boosts a command, and when that is the largest boost that
applies.
-/

namespace Lane

open KeyedSort

-----------------------------------------------------------------------------------------
-- The intervals that apply
-----------------------------------------------------------------------------------------

/-- What one call of `with_boost` adds: a threshold and a boost. -/
abbrev BoostCall := Duration × Nat

/-- A configuration made by calls of `with_boost`. -/
def boostConfig (deadline : Duration) (calls : List BoostCall) : PriorityBoostConfig :=
  calls.foldl (fun config call => config.withBoost call.1 call.2) (.new deadline)

/-- `calculate_priority` under such a configuration. -/
def boostedPriority (deadline : Duration) (calls : List BoostCall) (base : Priority)
    (createdAt now : DateTime)
    : Option Priority :=
  (PriorityBooster.mk (boostConfig deadline calls)).calculatePriority base createdAt now

/-- The time that remains before the deadline, in whole milliseconds. -/
def timeRemaining (deadline now : DateTime) : Duration :=
  ((deadline - now) / nanosPerMilli).toNat * nanosPerMilli

/-- The largest boost whose threshold is at least the remaining time. -/
def largestBoost (remaining : Duration) (calls : List BoostCall) : Nat :=
  ((calls.filter (fun call => remaining ≤ call.1)).map Prod.snd).foldr max 0

/-- The boost of the least threshold that is at least the remaining time; of equal thresholds
the latest call counts.
-/
def nearestBoost (remaining : Duration) (calls : List BoostCall) : Nat :=
  ((nearest Prod.fst remaining calls).map Prod.snd).getD 0

/-- No threshold that applies has a greater boost than the nearest one. -/
def NearestIsLargest (remaining : Duration) (calls : List BoostCall) : Prop :=
  ∀ call ∈ calls, remaining ≤ call.1 → call.2 ≤ nearestBoost remaining calls

variable {deadline : Duration} {calls : List BoostCall} {remaining less : Duration}
  {createdAt now later : DateTime} {base : Priority}

theorem le_largestBoost {call : BoostCall} (member : call ∈ calls)
    (applies : remaining ≤ call.1)
    : call.2 ≤ largestBoost remaining calls := by
  have applied : call.2 ∈ (calls.filter (fun call => remaining ≤ call.1)).map Prod.snd :=
    List.mem_map_of_mem (List.mem_filter.mpr ⟨member, decide_eq_true applies⟩)
  exact List.le_max_of_le applied le_rfl

theorem largestBoost_le {bound : Nat}
    (bounded : ∀ call ∈ calls, remaining ≤ call.1 → call.2 ≤ bound)
    : largestBoost remaining calls ≤ bound := by
  refine List.max_le_of_forall_le
    ((calls.filter (fun call => remaining ≤ call.1)).map Prod.snd) bound ?_
  intro boost member
  obtain ⟨call, applies, rfl⟩ := List.mem_map.mp member
  obtain ⟨called, applies⟩ := List.mem_filter.mp applies
  exact bounded call called (of_decide_eq_true applies)

/-- Fewer remaining milliseconds leave more intervals that apply. -/
theorem largestBoost_mono (closer : less ≤ remaining)
    : largestBoost remaining calls ≤ largestBoost less calls :=
  largestBoost_le (fun _ member applies => le_largestBoost member (le_trans closer applies))

theorem nearestBoost_le_largestBoost
    : nearestBoost remaining calls ≤ largestBoost remaining calls := by
  unfold nearestBoost
  cases found : nearest Prod.fst remaining calls with
  | none => exact Nat.zero_le _
  | some call =>
      obtain ⟨member, applies⟩ := nearest_mem found
      exact le_largestBoost member applies

theorem nearestBoost_eq_largestBoost_iff
    : nearestBoost remaining calls = largestBoost remaining calls
      ↔ NearestIsLargest remaining calls := by
  constructor
  · intro same call member applies
    rw [same]
    exact le_largestBoost member applies
  · intro nearestIsLargest
    exact le_antisymm nearestBoost_le_largestBoost (largestBoost_le nearestIsLargest)

-----------------------------------------------------------------------------------------
-- The boost of a configuration
-----------------------------------------------------------------------------------------

/-- The calls only change the intervals, and leave them as sorted arrivals. -/
theorem boostConfig_eq (deadline : Duration) (calls : List BoostCall)
    : boostConfig deadline calls
      = { enabled := true
          deadline
          boostIntervals :=
            calls.foldl (fun intervals call => sortDown Prod.fst (intervals ++ [call])) [] } := by
  have along : ∀ (calls : List BoostCall) (config : PriorityBoostConfig),
      calls.foldl (fun config call => config.withBoost call.1 call.2) config
        = { config with
            boostIntervals :=
              calls.foldl (fun intervals call => sortDown Prod.fst (intervals ++ [call]))
                config.boostIntervals } := by
    intro calls
    induction calls with
    | nil => exact fun _ => rfl
    | cons call rest ih => exact fun config => ih (config.withBoost call.1 call.2)
  exact along calls (.new deadline)

/-- The scan for the boost ends with the last interval that applies, by induction on the
intervals.
-/
theorem scan_eq_lastReaching (remaining : Duration) (intervals : List BoostCall) (boost : Nat)
    : intervals.foldl (fun boost (threshold, boostAmount) =>
          if remaining ≤ threshold then boostAmount else boost) boost
      = ((lastReaching Prod.fst remaining intervals).map Prod.snd).getD boost := by
  induction intervals generalizing boost with
  | nil => rfl
  | cons interval rest ih =>
      rw [List.foldl_cons, ih]
      unfold lastReaching
      by_cases applies : remaining ≤ interval.1
      · simp only [applies, if_true, List.filter_cons, decide_true, List.getLast?_cons]
        cases (rest.filter (fun other => remaining ≤ other.1)).getLast? <;> rfl
      · simp only [applies, if_false, List.filter_cons, decide_false, Bool.false_eq_true]

/-- A date that follows another one by a duration needs no longer delta than there is. -/
theorem fits_of_representable (created : minDateTime ≤ createdAt)
    (representable : createdAt + deadline ≤ maxDateTime)
    : Fits createdAt deadline := by
  refine ⟨?_, representable⟩
  have span : (deadline : Int) ≤ maxDateTime - minDateTime :=
    le_sub_iff_add_le.mpr (le_trans (by rw [add_comm]; exact add_le_add_left created _) representable)
  exact Int.ofNat_le.mp (le_trans span (by decide))

/-- The priority of a command at an instant before its deadline. -/
theorem boostedPriority_eq (created : minDateTime ≤ createdAt)
    (representable : createdAt + deadline ≤ maxDateTime) (before : now < createdAt + deadline)
    (base : Priority)
    : boostedPriority deadline calls base createdAt now
      = some (base - nearestBoost (timeRemaining (createdAt + deadline) now) calls) := by
  obtain ⟨short, _⟩ := fits_of_representable created representable
  rw [boostedPriority, boostConfig_eq, PriorityBooster.calculatePriority, if_neg (by simp), durationFromStd,
    if_pos short, Option.getD_some, checkedAddSigned, if_pos representable]
  simp only [if_neg (not_le.mpr before)]
  rw [scan_eq_lastReaching, lastReaching_arrivals]
  rfl

/-- From the deadline on a command is the most urgent one. -/
theorem boostedPriority_past_deadline (created : minDateTime ≤ createdAt)
    (representable : createdAt + deadline ≤ maxDateTime) (past : createdAt + deadline ≤ now)
    (base : Priority)
    : boostedPriority deadline calls base createdAt now
      = some 0 := by
  obtain ⟨short, _⟩ := fits_of_representable created representable
  rw [boostedPriority, boostConfig_eq, PriorityBooster.calculatePriority, if_neg (by simp), durationFromStd,
    if_pos short, Option.getD_some, checkedAddSigned, if_pos representable]
  exact if_pos past

theorem timeRemaining_mono {deadline : DateTime} (later_le : now ≤ later)
    : timeRemaining deadline later ≤ timeRemaining deadline now :=
  Nat.mul_le_mul_right _
    (Int.toNat_le_toNat (Int.ediv_le_ediv (by decide) (sub_le_sub_left later_le deadline)))

-----------------------------------------------------------------------------------------
-- The contract
-----------------------------------------------------------------------------------------

/-- Before the deadline a command is boosted by the largest boost that applies exactly when the
nearest threshold carries it. Where it does at two instants, the later priority is not less
urgent; from the deadline on the priority is zero.
-/
theorem deadline_boost (created : minDateTime ≤ createdAt)
    (representable : createdAt + deadline ≤ maxDateTime)
    : (∀ now, now < createdAt + deadline
        → ((∀ base,
              boostedPriority deadline calls base createdAt now
              = some (base - largestBoost (timeRemaining (createdAt + deadline) now) calls))
            ↔ NearestIsLargest (timeRemaining (createdAt + deadline) now) calls))
      ∧ (∀ now later base, now ≤ later
        → (∀ instant, instant = now ∨ instant = later → instant < createdAt + deadline
            → NearestIsLargest (timeRemaining (createdAt + deadline) instant) calls)
        → ∃ earlierPriority laterPriority,
            boostedPriority deadline calls base createdAt now = some earlierPriority
            ∧ boostedPriority deadline calls base createdAt later = some laterPriority
            ∧ laterPriority ≤ earlierPriority)
      ∧ ∀ now base, createdAt + deadline ≤ now
        → boostedPriority deadline calls base createdAt now = some 0 := by
  refine ⟨fun now before => ?_, fun now later base order nearestIsLargest => ?_,
    fun now base past => boostedPriority_past_deadline created representable past base⟩
  · rw [← nearestBoost_eq_largestBoost_iff]
    constructor
    · intro always
      -- a base priority above both boosts tells them apart
      have same := always
        (max (nearestBoost (timeRemaining (createdAt + deadline) now) calls)
          (largestBoost (timeRemaining (createdAt + deadline) now) calls))
      rw [boostedPriority_eq created representable before] at same
      generalize nearestBoost (timeRemaining (createdAt + deadline) now) calls = nearest at *
      generalize largestBoost (timeRemaining (createdAt + deadline) now) calls = largest at *
      have equal : max nearest largest - nearest = max nearest largest - largest :=
        Option.some.inj same
      omega
    · intro same base
      rw [boostedPriority_eq created representable before, same]
  · by_cases past : createdAt + deadline ≤ later
    · by_cases earlierPast : createdAt + deadline ≤ now
      · exact ⟨0, 0, boostedPriority_past_deadline created representable earlierPast base,
          boostedPriority_past_deadline created representable past base, le_rfl⟩
      · exact ⟨_, 0, boostedPriority_eq created representable (not_le.mp earlierPast) base,
          boostedPriority_past_deadline created representable past base, Nat.zero_le _⟩
    · have before := lt_of_le_of_lt order (not_le.mp past)
      refine ⟨_, _, boostedPriority_eq created representable before base,
        boostedPriority_eq created representable (not_le.mp past) base, ?_⟩
      rw [nearestBoost_eq_largestBoost_iff.mpr (nearestIsLargest now (.inl rfl) before),
        nearestBoost_eq_largestBoost_iff.mpr (nearestIsLargest later (.inr rfl) (not_le.mp past))]
      exact Nat.sub_le_sub_left (largestBoost_mono (timeRemaining_mono order)) base

/-- Boosts that grow towards the deadline are applied as the largest ones. -/
theorem deadline_boost_growing
    : boostedPriority 60000000000 [(30000000000, 1), (10000000000, 5)] 10 0 55000000000
      = some (10 - largestBoost (timeRemaining (0 + (60000000000 : Nat)) 55000000000)
          [(30000000000, 1), (10000000000, 5)]) :=
  ((deadline_boost (by decide) (by decide)).1 55000000000 (by decide)).mpr (by
    intro call member _
    rcases List.mem_cons.mp member with rfl | member
    · decide
    · rcases List.mem_cons.mp member with rfl | member
      · decide
      · cases member) 10

/-- A boost of five from thirty seconds and one of one from ten seconds before the deadline: the
command loses urgency as its deadline comes closer.
-/
theorem boost_falls_towards_deadline
    : boostedPriority 60000000000 [(30000000000, 5), (10000000000, 1)] 10 0 40000000000 = some 5
      ∧ boostedPriority 60000000000 [(30000000000, 5), (10000000000, 1)] 10 0 55000000000 = some 9
      ∧ largestBoost (timeRemaining (0 + (60000000000 : Nat)) 55000000000)
          [(30000000000, 5), (10000000000, 1)] = 5 := by
  decide

end Lane
