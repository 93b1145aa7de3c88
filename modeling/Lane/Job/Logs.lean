import Lane.Job.Management
import Lane.Library.ListRange

/-! Reading a job's retained log lines: the index arithmetic of `get_logs` on machine integers. -/

namespace Lane

open ListRange

-----------------------------------------------------------------------------------------
-- Signed machine integers
-----------------------------------------------------------------------------------------

/-- The least `isize` of a 64-bit target. -/
def isizeMin : Int := -2 ^ 63

/-- The greatest `isize`, which is also the greatest number of bytes in a `Vec`. -/
def isizeMax : Int := 2 ^ 63 - 1

/-- A signed integer of the size of a pointer. -/
structure Isize where
  val : Int
  lower : isizeMin ≤ val
  upper : val ≤ isizeMax
  deriving DecidableEq

namespace Isize

/-- The nearest representable integer. -/
def saturate (i : Int) : Isize where
  val := max isizeMin (min i isizeMax)
  lower := le_max_left _ _
  upper := max_le (by decide) (min_le_right _ _)

def saturatingAdd (i : Isize) (n : Int) : Isize := saturate (i.val + n)

def saturatingNeg (i : Isize) : Isize := saturate (-i.val)

theorem val_saturate {i : Int} (lower : isizeMin ≤ i) (upper : i ≤ isizeMax)
    : (saturate i).val = i := by
  exact (congrArg (max isizeMin) (min_eq_left upper)).trans (max_eq_right lower)

/-- The index that counts from the other end of a list; only `isize::MAX` is rounded. -/
theorem val_flip (i : Isize)
    : ((i.saturatingAdd 1).saturatingNeg).val = -(i.val + 1)
      ∨ (i.val = isizeMax ∧ ((i.saturatingAdd 1).saturatingNeg).val = -isizeMax) := by
  have lower := i.lower
  have upper := i.upper
  simp only [saturatingAdd, saturatingNeg, saturate, isizeMin, isizeMax] at *
  omega

end Isize

-----------------------------------------------------------------------------------------
-- Pages of log lines
-----------------------------------------------------------------------------------------

/-- A page of retained log lines, with the number of all retained lines. -/
structure JobLogPage where
  logs : List JobLogEntry
  count : Nat

/-- A list index; the length of a `Vec` is an `isize`, so the sum is exact. -/
def normalizeRedisIndex (index : Isize) (len : Nat) : Nat :=
  if index.val ≥ 0 then index.val.toNat
  else
    let normalized := len + index.val
    if normalized < 0 then 0 else normalized.toNat

def redisRange {α : Type} (items : List α) (start stop : Isize) : List α :=
  let len := items.length
  if len = 0 then []
  else
    let start := normalizeRedisIndex start len
    let stop := normalizeRedisIndex stop len
    if start > stop ∨ start ≥ len then []
    else slice items start (min stop (len - 1))

def logPage (logs : List JobLogEntry) (start stop : Isize) (ascending : Bool) : JobLogPage where
  logs :=
    if ascending then redisRange logs start stop
    else
      let reverseStart := (stop.saturatingAdd 1).saturatingNeg
      let reverseEnd := (start.saturatingAdd 1).saturatingNeg
      (redisRange logs reverseStart reverseEnd).reverse
  count := logs.length

/-- `get_logs`; a missing job has no lines. -/
def InMemoryJobQueueState.getLogs (s : InMemoryJobQueueState) (jobId : JobId)
    (start stop : Isize) (ascending : Bool)
    : Result JobLogPage :=
  .ok (((s.jobs.get jobId).map (fun job => logPage job.logs start stop ascending)).getD ⟨[], 0⟩)

-----------------------------------------------------------------------------------------
-- Normalized indices
-----------------------------------------------------------------------------------------

/-- Normalization raises every index that is still negative to zero. -/
theorem normalizeRedisIndex_eq (index : Isize) (len : Nat)
    : (normalizeRedisIndex index len : Int) = max 0 (fromEnd len index.val) := by
  simp only [normalizeRedisIndex, fromEnd]
  split_ifs <;> omega

/-- A range whose last index precedes the list is read as if it ended at the first entry. -/
def Clamped (len : Nat) (start stop : Int) : Prop :=
  0 < len ∧ fromEnd len start ≤ 0 ∧ fromEnd len stop < 0

instance (len : Nat) (start stop : Int) : Decidable (Clamped len start stop) :=
  inferInstanceAs (Decidable (_ ∧ _))

section Ranges

variable {α : Type} (items : List α) (start stop : Isize)

theorem redisRange_of_clamped (clamped : Clamped items.length start.val stop.val)
    : redisRange items start stop = slice items 0 0 := by
  obtain ⟨nonempty, first, last⟩ := clamped
  have starts := normalizeRedisIndex_eq start items.length
  have stops := normalizeRedisIndex_eq stop items.length
  have startZero : normalizeRedisIndex start items.length = 0 := by omega
  have stopZero : normalizeRedisIndex stop items.length = 0 := by omega
  rw [redisRange, if_neg (by omega)]
  simp only [startZero, stopZero]
  rw [if_neg (by omega), Nat.zero_min]

theorem redisRange_of_not_clamped (inside : ¬ Clamped items.length start.val stop.val)
    : redisRange items start stop = lrange items start.val stop.val := by
  have starts := normalizeRedisIndex_eq start items.length
  have stops := normalizeRedisIndex_eq stop items.length
  unfold Clamped at inside
  by_cases outside : max 0 (fromEnd items.length start.val) > fromEnd items.length stop.val
      ∨ max 0 (fromEnd items.length start.val) ≥ items.length
  · rw [lrange_eq_nil items outside, redisRange]
    by_cases empty : items.length = 0
    · exact if_pos empty
    · rw [if_neg empty]
      exact if_pos (by omega)
  · rw [redisRange, if_neg (by omega)]
    have ordered : ¬ (normalizeRedisIndex start items.length > normalizeRedisIndex stop items.length
        ∨ normalizeRedisIndex start items.length ≥ items.length) := by omega
    simp only [if_neg ordered]
    symm
    apply lrange_eq_slice
    · exact starts.symm
    · omega
    · omega

/-- The range agrees with `LRANGE` unless its last index had to be raised to zero. -/
theorem redisRange_eq_lrange_iff
    : redisRange items start stop = lrange items start.val stop.val
      ↔ ¬ Clamped items.length start.val stop.val := by
  refine ⟨fun same clamped => ?_, redisRange_of_not_clamped items start stop⟩
  have one : (slice items 0 0).length = 1 := length_slice items clamped.1
  have nothing : lrange items start.val stop.val = [] := by
    obtain ⟨_, first, last⟩ := clamped
    exact lrange_eq_nil items (by omega)
  rw [← redisRange_of_clamped items start stop clamped, same, nothing] at one
  cases one

end Ranges

/-- Clearing lines answers with the page of all the lines that are kept. -/
theorem clearLogs_page (s : InMemoryJobQueueState) (jobId : JobId) (keep : Nat)
    : ∃ kept : List JobLogEntry,
        (s.clearLogs jobId keep).2 = .ok (kept, kept.length)
        ∧ logPage kept (Isize.saturate 0) (Isize.saturate (-1)) true = ⟨kept, kept.length⟩ := by
  have whole : ∀ kept : List JobLogEntry,
      logPage kept (Isize.saturate 0) (Isize.saturate (-1)) true = ⟨kept, kept.length⟩ := by
    intro kept
    have start : (Isize.saturate 0).val = 0 := rfl
    have stop : (Isize.saturate (-1)).val = -1 := rfl
    have inside : ¬ Clamped kept.length (Isize.saturate 0).val (Isize.saturate (-1)).val := by
      rw [start, stop, Clamped, fromEnd, fromEnd]
      simp only [Int.neg_neg_iff_pos, Int.lt_irrefl, if_false]
      omega
    rw [logPage, if_pos rfl, redisRange_of_not_clamped kept _ _ inside, start, stop, lrange_all]
  unfold InMemoryJobQueueState.clearLogs
  cases s.jobs.get jobId with
  | none => exact ⟨[], rfl, whole []⟩
  | some job => exact ⟨_, rfl, whole _⟩

end Lane
