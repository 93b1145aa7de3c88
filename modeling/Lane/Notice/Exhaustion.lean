import Lane.Notice.Operations

/-! What the log says about a final failure: its report is kept, because trimming drops the
oldest events only.
-/

namespace Lane

namespace InMemoryJobQueueState

variable {s : InMemoryJobQueueState} {id jobId : JobId} {job : Job} {now : DateTime}
  {front tail : List JobEvent}

/-- Trimming keeps the newest events that fit. -/
theorem trimEventsLocked_append {maxLen : Nat} (log : s.events = front ++ tail)
    (fits : tail.length ≤ maxLen)
    : ∃ front, (s.trimEventsLocked maxLen).1.events = front ++ tail := by
  unfold trimEventsLocked
  split
  · exact ⟨front, log⟩
  · have kept : s.events.length - maxLen ≤ front.length := by
      rw [log, List.length_append]
      omega
    simp only [log] at kept ⊢
    exact ⟨_, List.drop_append_of_le_length kept⟩

/-- An emitted event is the newest one, and those before it are kept as long as they fit. -/
theorem emitEventLocked_append (log : s.events = front ++ tail)
    (fits : tail.length < defaultJobEventRetention) (event : String) (job : Option Job)
    (prev : Option JobState) (timestamp : DateTime) (fields : List (String × Value))
    : ∃ front entry,
        (s.emitEventLocked event job prev timestamp fields).events = front ++ (tail ++ [entry])
        ∧ entry.event = event
        ∧ entry.jobId = job.map Job.id
        ∧ entry.timestamp = timestamp
        ∧ entry.fields = fields := by
  let entry : JobEvent :=
    { id := s!"{saturatingSucc64 s.eventSequence}-0"
      event, timestamp, jobId := job.map Job.id, prev, fields }
  let emitted : InMemoryJobQueueState :=
    { s with
      eventSequence := saturatingSucc64 s.eventSequence
      events := s.events ++ [entry] }
  have newest : emitted.events = front ++ (tail ++ [entry]) := by
    change s.events ++ [entry] = _
    rw [log, List.append_assoc]
  have short : (tail ++ [entry]).length ≤ defaultJobEventRetention := by
    rw [List.length_append]
    exact fits
  obtain ⟨front, kept⟩ := trimEventsLocked_append newest short
  exact ⟨front, entry, kept, rfl, rfl, rfl, rfl⟩

/-- A report of exhausted retries stays in the log while the failure ends. -/
theorem reported_emitRetriesExhausted (s : InMemoryJobQueueState) (failed : Job)
    (now : DateTime)
    : ∃ entry ∈ ((s.emitRetriesExhaustedEventLocked failed now).emitDrainedEventIfNeededLocked
          now).events,
        entry.ReportsExhaustion failed.id
        ∧ entry.timestamp = now
        ∧ entry.fields = [("attemptsMade", .number failed.attemptsMade)] := by
  obtain ⟨front, entry, log, event, jobId, timestamp, fields⟩ :=
    emitEventLocked_append (List.append_nil s.events).symm (Nat.zero_lt_succ _)
      "retries-exhausted" (some failed) none now [("attemptsMade", .number failed.attemptsMade)]
  refine ⟨entry, ?_, ⟨event, jobId⟩, timestamp, fields⟩
  have reported : (s.emitRetriesExhaustedEventLocked failed now).events = front ++ [entry] := log
  unfold emitDrainedEventIfNeededLocked
  simp only
  split
  · obtain ⟨_, _, log, _⟩ :=
      emitEventLocked_append reported (by simp [defaultJobEventRetention]) "drained" none none now
        []
    rw [log]
    simp
  · rw [reported]
    simp

/-- A failure past the budget is reported. -/
theorem reported_failActiveJob {lockToken : JobLockToken} {error : String} {allowRetry : Bool}
    (accepted : s.requireOwnedActive jobId lockToken "fail" = .ok job)
    (exhausted : retriesExhausted (failedJob job error now allowRetry) = true)
    : ∃ entry ∈ (s.failActiveJob jobId lockToken error now allowRetry).1.events,
        entry.ReportsExhaustion jobId
        ∧ entry.timestamp = now
        ∧ entry.fields
          = [("attemptsMade", .number (failedJob job error now allowRetry).attemptsMade)] := by
  have sameId : (failedJob job error now allowRetry).id = jobId :=
    failedJob_ties.id.trans (JobMap.get_id (requireOwnedActive_ok accepted).1)
  unfold failActiveJob
  simp only [accepted]
  generalize failedJob job error now allowRetry = failed at sameId exhausted ⊢
  have terminal : failed.state = .failed := by
    simp only [retriesExhausted, Bool.and_eq_true, beq_iff_eq] at exhausted
    exact exhausted.1
  simp only [if_pos terminal, if_pos exhausted, ← sameId]
  exact reported_emitRetriesExhausted _ failed now

end InMemoryJobQueueState

end Lane
