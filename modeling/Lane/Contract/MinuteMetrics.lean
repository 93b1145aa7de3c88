import Lane.Redis.Finalization

/-! Minute metrics: the data list holds the counts of the closed minutes exactly when the last
minutes without a finish were fewer than the retained data points.
-/

namespace Lane

-----------------------------------------------------------------------------------------
-- Counts of minutes
-----------------------------------------------------------------------------------------

/-- The minutes of the finishes. -/
def minutes (finishes : List Int) : List Int := finishes.map (fun finish => finish / 60000)

/-- The number of finishes in the minute that was closed as the `i`-th before the current one. -/
def closedCount (finishes : List Int) (minute : Int) (i : Nat) : Int :=
  (minutes finishes).count (minute - 1 - i)

/-- The metrics after the finishes, one call for each. -/
def collectAll (maxDataPoints : Nat) (finishes : List Int) : Metrics :=
  finishes.foldl (fun metrics finish => collectMetrics metrics maxDataPoints finish) {}

/-- Every finish is counted in its own minute: the retained data are the counts of the last
closed minutes, and of no others.
-/
structure CountsPerMinute (maxDataPoints : Nat) (first : Int) (finishes : List Int)
    (metrics : Metrics)
    : Prop where
  count : metrics.count = finishes.length
  slots
    : ∃ prevTs prevCount, metrics.prev = some (prevTs, prevCount)
      ∧ metrics.data.length = min maxDataPoints (prevTs / 60000 - first / 60000).toNat
      ∧ ∀ i < metrics.data.length,
          metrics.data[i]? = some (closedCount finishes (prevTs / 60000) i)

/-- If any finish came before the last minute, one came in the last minutes that are retained. -/
def RecentlyActive (maxDataPoints : Nat) (finishes : List Int) (minute : Int) : Prop :=
  (∃ earlier ∈ minutes finishes, earlier < minute)
    → ∃ earlier ∈ minutes finishes, earlier < minute ∧ minute ≤ earlier + maxDataPoints

section Counts

variable {finishes : List Int} {minute finish : Int} {i maxDataPoints : Nat}

theorem minutes_append : minutes (finishes ++ [finish]) = minutes finishes ++ [finish / 60000] :=
  List.map_append

/-- The current minute is not closed. -/
theorem closedCount_current
    : closedCount (finishes ++ [finish]) (finish / 60000) i
      = closedCount finishes (finish / 60000) i := by
  have other : finish / 60000 ≠ finish / 60000 - 1 - i := by omega
  rw [closedCount, closedCount, minutes_append, List.count_append, List.count_singleton]
  simp [other]

/-- Minutes after the last finish are empty. -/
theorem closedCount_eq_zero (latest : ∀ earlier ∈ minutes finishes, earlier ≤ minute)
    {now : Int} (later : minute < now - 1 - i)
    : closedCount finishes now i = 0 := by
  rw [closedCount, List.count_eq_zero_of_not_mem]
  · rfl
  · intro member
    have bound := latest _ member
    omega

/-- The finishes are those of the last minute and those of earlier ones. -/
theorem length_eq_count_last (latest : ∀ earlier ∈ minutes finishes, earlier ≤ minute)
    : finishes.length
      = (minutes finishes).countP (fun earlier => earlier < minute)
        + (minutes finishes).count minute := by
  have same : (minutes finishes).countP (fun earlier => decide ¬ decide (earlier < minute) = true)
      = (minutes finishes).count minute := by
    rw [List.count]
    apply List.countP_congr
    intro earlier member
    have bound := latest earlier member
    simp
    omega
  have split := List.length_eq_countP_add_countP (fun earlier => decide (earlier < minute))
    (l := minutes finishes)
  rw [same] at split
  rw [← split, minutes, List.length_map]

/-- A finish within the minute does not change the earlier ones. -/
theorem recentlyActive_same
    : RecentlyActive maxDataPoints (finishes ++ [finish]) (finish / 60000)
      ↔ RecentlyActive maxDataPoints finishes (finish / 60000) := by
  simp only [RecentlyActive, minutes_append, List.mem_append, List.mem_singleton, or_and_right,
    exists_or, exists_eq_left, lt_irrefl, false_and, or_false]

/-- After a rollover the minute that was closed decides. -/
theorem recentlyActive_rollover (latest : ∀ earlier ∈ minutes finishes, earlier ≤ minute)
    (seen : minute ∈ minutes finishes) (later : minute < finish / 60000)
    : RecentlyActive maxDataPoints (finishes ++ [finish]) (finish / 60000)
      ↔ finish / 60000 ≤ minute + maxDataPoints := by
  rw [recentlyActive_same, RecentlyActive]
  constructor
  · intro active
    obtain ⟨earlier, member, _, recent⟩ := active ⟨minute, seen, later⟩
    have bound := latest earlier member
    omega
  · exact fun recent _ => ⟨minute, seen, later, recent⟩

end Counts

-----------------------------------------------------------------------------------------
-- One call
-----------------------------------------------------------------------------------------

section Calls

variable {metrics : Metrics} {timestamp prevTs : Int} {maxDataPoints prevCount gap : Nat}

theorem minute_eq (timestamp : Int) : Int.fdiv timestamp 60000 = timestamp / 60000 :=
  Int.fdiv_eq_ediv_of_nonneg _ (by decide)

/-- The first finish opens its minute. -/
theorem collectMetrics_first (retains : 0 < maxDataPoints)
    : collectMetrics {} maxDataPoints timestamp
      = { count := 1, prev := some (timestamp, 0), data := [] } := by
  rw [collectMetrics, if_neg (Nat.ne_of_gt retains)]

/-- Within the minute only the finish is counted. -/
theorem collectMetrics_same (retains : 0 < maxDataPoints)
    (previous : metrics.prev = some (prevTs, prevCount))
    (same : timestamp / 60000 = prevTs / 60000)
    : collectMetrics metrics maxDataPoints timestamp
      = { metrics with count := metrics.count + 1 } := by
  have none : ¬ (0 : Int) < min 0 (maxDataPoints : Int) := by omega
  rw [collectMetrics, if_neg (Nat.ne_of_gt retains)]
  simp only [previous, minute_eq, same, Int.sub_self, if_neg none]

/-- A rollover puts the count of the minute that it closes behind the empty minutes. -/
theorem collectMetrics_rollover (retains : 0 < maxDataPoints)
    (previous : metrics.prev = some (prevTs, prevCount))
    (minutes : timestamp / 60000 - prevTs / 60000 = gap) (closes : 0 < gap)
    : collectMetrics metrics maxDataPoints timestamp
      = { count := metrics.count + 1
          prev := some (timestamp, metrics.count)
          data :=
            (List.replicate (min gap maxDataPoints - 1) 0
              ++ ((metrics.count : Int) - prevCount) :: metrics.data).take maxDataPoints } := by
  have points : min (gap : Int) maxDataPoints = (min gap maxDataPoints : Nat) := by omega
  have some : (0 : Int) < (min gap maxDataPoints : Nat) := by omega
  rw [collectMetrics, if_neg (Nat.ne_of_gt retains)]
  simp only [previous, minute_eq, minutes, points, if_pos some, Int.toNat_natCast]
  simp

end Calls

-----------------------------------------------------------------------------------------
-- All calls
-----------------------------------------------------------------------------------------

/-- What the metrics hold after the finishes up to the last one: all closed minutes are counted
but for the last slot, and that one as well exactly when there was a recent finish.
-/
structure Collected (maxDataPoints : Nat) (first : Int) (finishes : List Int) (last : Int)
    (metrics : Metrics)
    : Prop where
  firstMinute : first / 60000 ≤ last / 60000
  latest : ∀ earlier ∈ minutes finishes, earlier ≤ last / 60000
  seen : last / 60000 ∈ minutes finishes
  count : metrics.count = finishes.length
  current
    : ∃ prevTs, prevTs / 60000 = last / 60000
      ∧ metrics.prev
        = some (prevTs, (minutes finishes).countP (fun earlier => earlier < last / 60000))
  length : metrics.data.length = min maxDataPoints (last / 60000 - first / 60000).toNat
  slots
    : ∀ i < metrics.data.length, i + 1 < maxDataPoints
      → metrics.data[i]? = some (closedCount finishes (last / 60000) i)
  lastSlot
    : (∀ i < metrics.data.length,
          metrics.data[i]? = some (closedCount finishes (last / 60000) i))
      ↔ RecentlyActive maxDataPoints finishes (last / 60000)

section Runs

variable {maxDataPoints : Nat} {first last finish : Int} {finishes : List Int} {metrics : Metrics}

/-- The entry at a position after a rollover. -/
theorem getElem?_rolled {zeros i : Nat} {delta : Int} {data : List Int} (inside : i < maxDataPoints)
    : ((List.replicate zeros 0 ++ delta :: data).take maxDataPoints)[i]?
      = if i < zeros then some 0 else if i = zeros then some delta
        else data[i - (zeros + 1)]? := by
  rw [List.getElem?_take_of_lt inside]
  by_cases empty : i < zeros
  · rw [if_pos empty, List.getElem?_append_left (by simpa using empty),
      List.getElem?_replicate_of_lt empty]
  · rw [if_neg empty, List.getElem?_append_right (by simpa using empty), List.length_replicate]
    by_cases closed : i = zeros
    · rw [if_pos closed, closed, Nat.sub_self]
      rfl
    · obtain ⟨earlier, same⟩ := Nat.exists_eq_add_of_lt (by omega : zeros < i)
      rw [if_neg closed, same]
      have position : zeros + earlier + 1 - zeros = earlier + 1 := by omega
      have shifted : zeros + earlier + 1 - (zeros + 1) = earlier := by omega
      rw [position, shifted, List.getElem?_cons_succ]

/-- A finish within the last minute. -/
theorem Collected.same (collected : Collected maxDataPoints first finishes last metrics)
    (retains : 0 < maxDataPoints) (same : finish / 60000 = last / 60000)
    : Collected maxDataPoints first (finishes ++ [finish]) finish
        (collectMetrics metrics maxDataPoints finish) := by
  obtain ⟨prevTs, minute, previous⟩ := collected.current
  rw [collectMetrics_same retains previous (same.trans minute.symm)]
  have slot : ∀ i, closedCount (finishes ++ [finish]) (finish / 60000) i
      = closedCount finishes (last / 60000) i := by
    intro i
    rw [closedCount_current, same]
  refine ⟨?_, ?_, ?_, ?_, ⟨prevTs, minute.trans same.symm, ?_⟩, ?_, ?_, ?_⟩
  · rw [same]
    exact collected.firstMinute
  · intro earlier member
    rw [minutes_append] at member
    rcases List.mem_append.mp member with before | own
    · rw [same]
      exact collected.latest earlier before
    · exact (List.mem_singleton.mp own).le
  · rw [minutes_append]
    exact List.mem_append_right _ List.mem_cons_self
  · simp [collected.count]
  · rw [minutes_append, List.countP_append, List.countP_singleton, same]
    simpa using previous
  · rw [same]
    exact collected.length
  · intro i inside notLast
    rw [slot]
    exact collected.slots i inside notLast
  · rw [recentlyActive_same, same, ← collected.lastSlot]
    simp only [slot, ← same]

/-- A finish after the last minute, by cases on how long ago that was. -/
theorem Collected.rollover (collected : Collected maxDataPoints first finishes last metrics)
    (retains : 0 < maxDataPoints) (later : last / 60000 < finish / 60000)
    : Collected maxDataPoints first (finishes ++ [finish]) finish
        (collectMetrics metrics maxDataPoints finish) := by
  obtain ⟨prevTs, minute, previous⟩ := collected.current
  obtain ⟨gap, minutesApart⟩ := Int.eq_ofNat_of_zero_le (sub_nonneg.mpr later.le)
  have closes : 0 < gap := by omega
  have delta : ((metrics.count : Int)
        - ((minutes finishes).countP (fun earlier => earlier < last / 60000) : Nat))
      = (minutes finishes).count (last / 60000) := by
    have all := length_eq_count_last collected.latest
    rw [collected.count]
    omega
  rw [collectMetrics_rollover retains previous (minute ▸ minutesApart) closes, delta]
  have length := collected.length
  have firstMinute := collected.firstMinute
  have dataLength : ((List.replicate (min gap maxDataPoints - 1) 0
        ++ ((minutes finishes).count (last / 60000) : Int) :: metrics.data).take
          maxDataPoints).length
      = min maxDataPoints (finish / 60000 - first / 60000).toNat := by
    rw [List.length_take, List.length_append, List.length_replicate, List.length_cons]
    omega
  -- the slot of the closed minute, and the slots before and after it
  have slot : ∀ i < maxDataPoints, (i + 1 < maxDataPoints ∨ gap ≤ maxDataPoints)
      → i < min maxDataPoints (finish / 60000 - first / 60000).toNat
      → ((List.replicate (min gap maxDataPoints - 1) 0
          ++ ((minutes finishes).count (last / 60000) : Int) :: metrics.data).take
            maxDataPoints)[i]?
        = some (closedCount (finishes ++ [finish]) (finish / 60000) i) := by
    intro i inside counted within
    rw [getElem?_rolled inside, closedCount_current]
    by_cases empty : i < min gap maxDataPoints - 1
    · rw [if_pos empty, closedCount_eq_zero collected.latest (by omega)]
    · rw [if_neg empty]
      by_cases closed : i = min gap maxDataPoints - 1
      · rw [if_pos closed, closedCount]
        have tick : finish / 60000 - 1 - (i : Int) = last / 60000 := by omega
        rw [tick]
      · rw [if_neg closed]
        have earlier : finish / 60000 - 1 - (i : Int)
            = last / 60000 - 1 - ((i - (min gap maxDataPoints - 1 + 1) : Nat) : Int) := by
          omega
        rw [closedCount, earlier]
        exact collected.slots _ (by omega) (by omega)
  refine ⟨collected.firstMinute.trans later.le, ?_, ?_, ?_, ⟨finish, rfl, ?_⟩, dataLength, ?_, ?_⟩
  · intro earlier member
    rw [minutes_append] at member
    rcases List.mem_append.mp member with before | own
    · exact (collected.latest earlier before).trans later.le
    · exact (List.mem_singleton.mp own).le
  · rw [minutes_append]
    exact List.mem_append_right _ List.mem_cons_self
  · simp [collected.count]
  · have all : (minutes finishes).countP (fun earlier => earlier < finish / 60000)
        = (minutes finishes).length := by
      rw [List.countP_eq_length]
      intro earlier member
      exact decide_eq_true ((collected.latest earlier member).trans_lt later)
    rw [minutes_append, List.countP_append, List.countP_singleton, all, collected.count]
    simp [minutes]
  · intro i inside notLast
    rw [dataLength] at inside
    exact slot i (by omega) (.inl notLast) inside
  · rw [recentlyActive_rollover collected.latest collected.seen later, dataLength]
    constructor
    · intro counts
      by_contra longAgo
      -- the closed minute stands in the last slot, where an empty one belongs
      have wrong := counts (maxDataPoints - 1) (by omega)
      rw [getElem?_rolled (by omega), closedCount_current,
        closedCount_eq_zero collected.latest (by omega), if_neg (by omega),
        if_pos (by omega)] at wrong
      have none : ((minutes finishes).count (last / 60000) : Int) = 0 := Option.some.inj wrong
      have some := List.count_pos_iff.mpr collected.seen
      omega
    · intro recent i inside
      exact slot i (by omega) (.inr (by omega)) inside

/-- All finishes in their order, by induction from the last one. -/
theorem collected_collectAll (retains : 0 < maxDataPoints) (first : Int) (rest : List Int)
    (ordered : (first :: rest).Pairwise (· ≤ ·)) (isLast : (first :: rest).getLast? = some last)
    : Collected maxDataPoints first (first :: rest) last
        (collectAll maxDataPoints (first :: rest)) := by
  induction rest using List.reverseRecOn generalizing last with
  | nil =>
      cases isLast
      rw [collectAll, List.foldl_cons, List.foldl_nil, collectMetrics_first retains]
      refine ⟨le_rfl, ?_, List.mem_cons_self, rfl, ⟨first, rfl, ?_⟩, ?_, ?_, ?_⟩
      · intro earlier member
        exact (List.mem_singleton.mp member).le
      · simp [minutes]
      · simp
      · intro i inside
        cases inside
      · refine iff_of_true (fun i inside => by cases inside) ?_
        rintro ⟨earlier, member, before⟩
        exact absurd (List.mem_singleton.mp member) before.ne
  | append_singleton rest finish ih =>
      rw [← List.cons_append] at ordered isLast ⊢
      rw [List.getLast?_append_of_ne_nil _ (List.cons_ne_nil _ _)] at isLast
      cases isLast
      obtain ⟨before, _, after⟩ := List.pairwise_append.mp ordered
      have collected := ih before (List.getLast?_eq_some_getLast (List.cons_ne_nil _ _))
      have later : (first :: rest).getLast (List.cons_ne_nil _ _) / 60000 ≤ finish / 60000 :=
        Int.ediv_le_ediv (by decide) (after _ (List.getLast_mem _) finish List.mem_cons_self)
      have next : collectAll maxDataPoints (first :: rest ++ [finish])
          = collectMetrics (collectAll maxDataPoints (first :: rest)) maxDataPoints finish := by
        rw [collectAll, List.foldl_append]
        rfl
      rw [next]
      rcases later.eq_or_lt with same | rolls
      · exact collected.same retains same.symm
      · exact collected.rollover retains rolls

end Runs

-----------------------------------------------------------------------------------------
-- The contract
-----------------------------------------------------------------------------------------

section Contract

variable {maxDataPoints : Nat} {first last : Int} {finishes : List Int} {metrics : Metrics}

theorem Collected.countsPerMinute_iff
    (collected : Collected maxDataPoints first finishes last metrics)
    : CountsPerMinute maxDataPoints first finishes metrics
      ↔ RecentlyActive maxDataPoints finishes (last / 60000) := by
  obtain ⟨prevTs, minute, previous⟩ := collected.current
  rw [← collected.lastSlot]
  constructor
  · intro counts
    obtain ⟨other, _, shown, _, slots⟩ := counts.slots
    rw [previous, Option.some.injEq, Prod.mk.injEq] at shown
    rw [← shown.1, minute] at slots
    exact slots
  · intro slots
    refine ⟨collected.count, prevTs, _, previous, ?_, ?_⟩
    · rw [minute]
      exact collected.length
    · rw [minute]
      exact slots

/-- After any finishes in their order the total is their number, and the retained data are the
counts of the last closed minutes exactly when no finish came before the last minute or one came
in the minutes that are retained.
-/
theorem metrics_count_minutes (retains : 1 ≤ maxDataPoints)
    (ordered : finishes.Pairwise (· ≤ ·))
    : (collectAll maxDataPoints finishes).count = finishes.length
      ∧ ∀ first ∈ finishes.head?, ∀ last ∈ finishes.getLast?,
        (CountsPerMinute maxDataPoints first finishes (collectAll maxDataPoints finishes)
          ↔ RecentlyActive maxDataPoints finishes (last / 60000)) := by
  cases finishes with
  | nil =>
      refine ⟨rfl, fun first member => ?_⟩
      cases member
  | cons earliest rest =>
      have collected := collected_collectAll retains earliest rest ordered
        (List.getLast?_eq_some_getLast (List.cons_ne_nil _ _))
      refine ⟨collected.count, fun first isFirst last isLast => ?_⟩
      cases isFirst
      exact (collected_collectAll retains earliest rest ordered isLast).countsPerMinute_iff

/-- Two finishes that are one minute apart are counted in their minutes. -/
theorem metrics_count_minutes_adjacent
    : CountsPerMinute 2 0 [0, 60000] (collectAll 2 [0, 60000]) :=
  ((metrics_count_minutes (by decide) (by decide)).2 0 rfl 60000 rfl).mpr
    (fun _ => ⟨0, by decide, by decide, by decide⟩)

/-- After three minutes of which two are retained, the finish of the first minute is reported in
the second one.
-/
theorem old_finish_reported_later
    : (collectAll 2 [0, 180000]).data = [0, 1] ∧ closedCount [0, 180000] 3 1 = 0
      ∧ closedCount [0, 180000] 3 2 = 1 := by
  decide

end Contract

end Lane
