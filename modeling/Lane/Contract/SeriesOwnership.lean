import Lane.Board.ExclusiveKeys

/-! Repeat-series ownership: a series has at most one unfinished job as long as no kept
candidate enters with the repeat key of a job that goes on.
-/

namespace Lane

namespace InMemoryJobQueueState

/-- The job is retained, has not finished and carries this repeat key. -/
def CarriesSeries (s : InMemoryJobQueueState) (repeatKey : String) (id : JobId) : Prop :=
  ∃ job, s.jobs.get id = some job ∧ activeRepeatKey job = some repeatKey

instance (s : InMemoryJobQueueState) (repeatKey : String) (id : JobId)
    : Decidable (s.CarriesSeries repeatKey id) :=
  decidable_of_iff ((s.jobs.get id).any (fun job => activeRepeatKey job == some repeatKey) = true)
    (by simp [CarriesSeries, Option.any_eq_true])

/-- The candidates that the operation may admit bring no repeat key that a job carries on
which the operation does not finish, and no two of them bring the same one.
-/
def CandidatesSpareSeries (s : InMemoryJobQueueState) (op : Op) : Prop :=
  ∀ now job repeatKey,
    s.MayEnter op now job
    → job.repeatKey = some repeatKey
    → (∀ id, s.CarriesSeries repeatKey id → s.Ends op id)
      ∧ ∀ other,
          s.MayEnter op now other → other.repeatKey = some repeatKey → other.id = job.id

end InMemoryJobQueueState

-----------------------------------------------------------------------------------------
-- The rules of repeat keys
-----------------------------------------------------------------------------------------

theorem seriesKey_eq_some {card : Card} {repeatKey : String}
    : card.seriesKey = some repeatKey
      ↔ card.phase.isTerminal = false ∧ card.repeatKey = some repeatKey := by
  unfold Card.seriesKey
  cases card.phase.isTerminal <;> simp

/-- A record brings its repeat key. -/
theorem repeatKey_of_freshCard {job : Job} {repeatKey : String}
    (carried : job.freshCard.seriesKey = some repeatKey)
    : job.repeatKey = some repeatKey :=
  (seriesKey_eq_some.mp carried).2

/-- The repeat key of unfinished jobs is checked wherever a job is submitted or retried. -/
theorem seriesRules (now : DateTime)
    : KeyRules now Card.seriesKey (fun _ _ _ => True) where
  continued := by
    intro card old repeatKey continued carried
    rw [seriesKey_eq_some] at carried ⊢
    refine ⟨?_, continued.repeatKey ▸ carried.2⟩
    by_contra terminal
    rw [continued.terminal ((Bool.not_eq_false _).mp terminal)] at carried
    cases carried.1
  disowned carried := carried
  admits admits carried := admits.uncarried (repeatKey_of_freshCard carried)
  coalesces _ coalesces := coalesces.retimes.carries.mp
  sifts sifts := sifts.retimes.carries.mp
  unheld := by
    intro b submitted parentId children existingIds p child repeatKey _ gathers inserted carried id
      carries
    exact gathers.uncarried child inserted repeatKey (repeatKey_of_freshCard carried) id
      (gathers.sifts.retimes.carries.mp carries)
  once := by
    intro b submitted parentId children existingIds p left right repeatKey _ gathers leftIn rightIn
      leftCarried rightCarried
    by_contra different
    have symm
        : Std.Symm (fun left right : Job =>
            ∀ key, left.repeatKey = some key → right.repeatKey ≠ some key) :=
      ⟨fun left right apart key rightKey leftKey => apart key leftKey rightKey⟩
    exact gathers.singlyCarried.forall leftIn rightIn (fun same => different (congrArg Job.id same))
      repeatKey (repeatKey_of_freshCard leftCarried) (repeatKey_of_freshCard rightCarried)
  created := by
    intro b parent repeatKey inserted _ uncarried carried
    obtain ⟨free, apart⟩ := uncarried repeatKey (repeatKey_of_freshCard carried)
    exact ⟨free, fun child member held => apart child member (repeatKey_of_freshCard held)⟩
  retried := by
    intro s job enqueuedSeq repeatKey checks carried
    exact checks.uncarried repeatKey (seriesKey_eq_some.mp carried).2

namespace InMemoryJobQueueState

variable {cron : Cron} {find : Find} {queue : QueueName} {s : InMemoryJobQueueState} {op : Op}
  {now : DateTime} {repeatKey : String} {id : JobId}

theorem carriesSeries_iff : s.CarriesSeries repeatKey id ↔ s.board.Carries repeatKey id := by
  constructor
  · rintro ⟨job, found, carried⟩
    exact ⟨_, board_cards_of_get found, activeRepeatKey_eq_seriesKey ▸ carried⟩
  · rintro ⟨card, shown, carried⟩
    obtain ⟨job, found, rfl⟩ := board_cards_some shown
    exact ⟨job, found, activeRepeatKey_eq_seriesKey.trans carried⟩

/-- The next occurrence of a repeat job follows the only job of its series. -/
theorem entersFreely_of_spares (unique : s.board.SeriesUnique)
    (spares : s.CandidatesSpareSeries op)
    : s.EntersFreely cron Card.seriesKey op now where
  candidate := by
    rintro job repeatKey enters carried id (⟨goesOn, carries⟩ | ⟨_, _, card, _, _, _, held⟩)
    · have own := repeatKey_of_freshCard carried
      exact goesOn ((spares now job repeatKey enters own).1 id (carriesSeries_iff.mpr carries))
    · cases (seriesKey_eq_some.mp held).1
  candidates := by
    intro left right repeatKey leftEnters rightEnters leftCarried rightCarried
    exact (spares now right repeatKey rightEnters (repeatKey_of_freshCard rightCarried)).2 left
      leftEnters (repeatKey_of_freshCard leftCarried)
  successor := by
    rintro next repeatKey ⟨jobId, lockToken, value, uuid, job, rfl, accepted, scheduled, _⟩ carried id
      (⟨goesOn, carries⟩ | ⟨_, _, card, _, _, _, held⟩)
    · have finishes
          : s.Finishes (.completeJob jobId lockToken value now uuid) now job
              job.options.removesCompletedImmediately :=
        .completes accepted
      obtain ⟨found, active⟩ := finishes.active
      have own : job.repeatKey = some repeatKey :=
        (succeeds_nextRepeatJob scheduled).repeatKey.symm.trans (repeatKey_of_freshCard carried)
      have ownCarries : s.board.Carries repeatKey job.id :=
        carriesSeries_iff.mp ⟨job, found, by simp [activeRepeatKey, active, own, JobState.isTerminal]⟩
      exact goesOn ⟨now, job, _, finishes, unique.eq ownCarries carries⟩
    · cases (seriesKey_eq_some.mp held).1

theorem seriesUnique_step (unique : s.board.SeriesUnique) (spares : s.CandidatesSpareSeries op)
    : (step cron find queue s op).board.SeriesUnique := by
  refine unique_step (seriesRules (op.time.getD 0)) ?_ unique (entersFreely_of_spares unique spares)
    (fun _ _ _ _ _ _ => trivial)
  intro time known
  rw [known]
  rfl

end InMemoryJobQueueState

/-- In a run whose operations admit no candidate into a series that goes on, every series has
at most one unfinished job.
-/
theorem series_owned_once {cron : Cron} {queue : QueueName} {s : InMemoryJobQueueState}
    (run : ReachableWhen cron queue (fun s call => s.CandidatesSpareSeries call.op) s)
    : ∀ repeatKey left right,
        s.CarriesSeries repeatKey left → s.CarriesSeries repeatKey right → left = right := by
  have unique : s.board.SeriesUnique := by
    refine run.invariant (fun s => s.board.SeriesUnique) ?_ ?_
    · rw [InMemoryJobQueueState.board_empty]
      exact KeyTable.unique_empty
    · rintro s call _ unique spares ⟨_, rfl⟩
      exact InMemoryJobQueueState.seriesUnique_step unique spares
  intro repeatKey left right leftCarries rightCarries
  exact unique.eq (InMemoryJobQueueState.carriesSeries_iff.mp leftCarries)
    (InMemoryJobQueueState.carriesSeries_iff.mp rightCarries)

-----------------------------------------------------------------------------------------
-- A series that a kept candidate splits
-----------------------------------------------------------------------------------------

/-- The first owner of a deduplication id outlives its TTL. Under the second owner, which
carries a repeat series, a duplicate of that series is kept, and the end of the first owner
admits it.
-/
def splitSeries : InMemoryJobQueueState :=
  let series : RepeatOptions := { schedule := .every 5, key := some "series" }
  serve noCron "queue" {}
    [ { op := .addAt "work" .null { deduplication := some { id := "key", ttl := some 10 } } 0 "first" },
      { op := .claimNext "worker" 100 0 "lease-1" },
      { op := .addAt "work" .null
          { deduplication := some { id := "key" }, repeatOptions := some series } 20 "second" },
      { op := .claimNext "worker" 100 20 "lease-2" },
      { op := .addAt "work" .null
          { deduplication := some { id := "key", keepLastIfActive := true },
            repeatOptions := some series } 21 "third" },
      { op := .completeJob "first" "lease-1" .null 22 "next" } ]

theorem reachable_splitSeries : Reachable noCron "queue" splitSeries :=
  reaches_serve (by decide +kernel)

/-- Two unfinished jobs carry on the same series. -/
theorem series_split_by_candidate
    : ¬ ∀ (cron : Cron) (queue : QueueName) (s : InMemoryJobQueueState),
        Reachable cron queue s
        → ∀ repeatKey left right,
            s.CarriesSeries repeatKey left → s.CarriesSeries repeatKey right → left = right := by
  intro unique
  have same := unique noCron "queue" splitSeries reachable_splitSeries "series" "second" "third"
    (by decide +kernel) (by decide +kernel)
  revert same
  decide

/-- A repeat series whose first job is completed. -/
def continuedSeries : List Call :=
  [ { op := .addAt "work" .null
        { repeatOptions := some { schedule := .every 5, key := some "series" } } 0 "first" },
    { op := .claimNext "worker" 100 0 "lease-1" },
    { op := .completeJob "first" "lease-1" .null 1 "second" } ]

theorem series_owned_once_continued
    : (serve noCron "queue" {} continuedSeries).CarriesSeries "series" "second"
      ∧ ∀ id,
          (serve noCron "queue" {} continuedSeries).CarriesSeries "series" id → id = "second" := by
  have spares {s : InMemoryJobQueueState} {op : Op} (unkept : s.deduplicationNext.keys = [])
      (unkeptFlows : s.deduplicationNextFlows.keys = [])
      : s.CandidatesSpareSeries op :=
    fun _ _ _ enters =>
      absurd enters (InMemoryJobQueueState.not_mayEnter_of_unkept unkept unkeptFlows)
  have allowed
      : AllowedCalls noCron "queue" (fun s call => s.CandidatesSpareSeries call.op) {}
          continuedSeries :=
    ⟨⟨spares rfl rfl, by decide +kernel⟩, ⟨spares rfl rfl, by decide +kernel⟩,
      ⟨spares rfl rfl, by decide +kernel⟩, trivial⟩
  have carries : (serve noCron "queue" {} continuedSeries).CarriesSeries "series" "second" := by
    decide +kernel
  exact ⟨carries, fun id other => series_owned_once (run_serve allowed) "series" id "second" other carries⟩

end Lane
