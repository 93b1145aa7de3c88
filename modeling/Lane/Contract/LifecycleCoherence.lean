import Lane.Board.Links
import Lane.Life.Coherence
import Lane.Life.Processing

/-! Lifecycle coherence: the lease, the end and the return value of every retained job agree
with its state, finished jobs only leave their state by a retry, and a token that stopped being
the current one is refused from then on.
-/

namespace Lane

/-- The lease, the end and the return value agree with the state. -/
structure Job.Coherent (job : Job) : Prop where
  leased
    : job.state = .active
      ↔ job.workerId.isSome = true
        ∧ job.lockToken.isSome = true
        ∧ job.leaseExpiresAt.isSome = true
  unleased
    : job.state ≠ .active
      → job.workerId = none ∧ job.lockToken = none ∧ job.leaseExpiresAt = none
  finished : job.finishedAt.isSome = true ↔ job.state = .completed ∨ job.state = .failed
  returned : job.returnValue.isSome = true ↔ job.state = .completed

/-- The job and the lock token with which an operation acts on a lease. -/
def Op.actsOnLease : Op → Option (JobId × JobLockToken)
  | .renew jobId lockToken _ _ => some (jobId, lockToken)
  | op => op.endsLease

namespace InMemoryJobQueueState

/-- The token is the job's current lock token. -/
def HoldsToken (s : InMemoryJobQueueState) (id : JobId) (token : JobLockToken) : Prop :=
  ∃ job, s.jobs.get id = some job ∧ job.lockToken = some token

instance (s : InMemoryJobQueueState) (id : JobId) (token : JobLockToken)
    : Decidable (s.HoldsToken id token) :=
  decidable_of_iff ((s.jobs.get id).any (fun job => job.lockToken == some token) = true)
    (by simp [HoldsToken, Option.any_eq_true])

-----------------------------------------------------------------------------------------
-- Coherence of records
-----------------------------------------------------------------------------------------

theorem coherent_of_life {job : Job} (coherent : job.life.Coherent) : job.Coherent := by
  have leased : job.state = .active → _ := coherent.leased
  have unleased : job.state ≠ .active → job.life.Unleased := coherent.unleased
  have finished : job.finishedAt.isSome = job.state.isTerminal := coherent.finished
  have returned : job.returnValue.isSome = (job.state == .completed) := coherent.returned
  refine ⟨⟨leased, fun ⟨_, token, _⟩ => ?_⟩, unleased, ?_, by simp [returned]⟩
  · by_contra idle
    have tokenless : job.lockToken = none := (unleased idle).2.1
    rw [tokenless] at token
    cases token
  · rw [finished]
    cases job.state <;> simp [JobState.isTerminal]

/-- A step keeps every life coherent. -/
theorem coherent_step (cron : Cron) (find : Find) (queue : QueueName)
    {s : InMemoryJobQueueState} (op : Op) (every : s.lives.Every Life.Coherent)
    : (step cron find queue s op).lives.Every Life.Coherent := by
  obtain ⟨_, turns⟩ := turned_step cron find queue s op
  exact turns.coherent every

end InMemoryJobQueueState

-----------------------------------------------------------------------------------------
-- Finished jobs
-----------------------------------------------------------------------------------------

/-- A terminal phase tells the state. -/
theorem JobState.eq_of_phase {state other : JobState} (terminal : other.isTerminal = true)
    (same : state.phase = other.phase)
    : state = other := by
  cases other with
  | completed => exact JobState.phase_eq_completed.mp same
  | failed => exact JobState.phase_eq_failed.mp same
  | waiting | delayed | active | waitingChildren => cases terminal

namespace Board

variable {b after : Board} {id parentId : JobId} {phase : Phase} {job : Job} {now : DateTime}

/-- The job is on the board in this phase. -/
def Shows (b : Board) (id : JobId) (phase : Phase) : Prop :=
  ∃ card, b.cards id = some card ∧ card.phase = phase

/-- If the job is on the board, it is in this phase. -/
def AtMost (b : Board) (id : JobId) (phase : Phase) : Prop :=
  ∀ card, b.cards id = some card → card.phase = phase

theorem Shows.atMost (shows : b.Shows id phase) : b.AtMost id phase := by
  obtain ⟨card, found, inPhase⟩ := shows
  intro other shown
  rw [found] at shown
  exact Option.some.inj shown ▸ inPhase

theorem AtMost.settles (atMost : b.AtMost id phase) (terminal : phase.isTerminal = true)
    (settles : b.Settles after)
    : after.AtMost id phase := by
  intro card found
  obtain ⟨old, shown, _, stays⟩ := settles.card found
  have before := atMost old shown
  rw [stays (by rw [before]; exact terminal), before]

theorem Shows.retimed (shows : b.Shows id phase) (retimes : b.Retimes after)
    : after.Shows id phase := by
  obtain ⟨card, found, inPhase⟩ := shows
  obtain ⟨later, shown, same⟩ := retimes.card_after found
  exact ⟨later, shown, (congrArg Card.phase same).trans inPhase⟩

/-- A finished job is not replaced by a submission. -/
theorem Shows.entered {replaced : Option JobId} (shows : b.Shows id phase)
    (terminal : phase.isTerminal = true) (admits : b.Admits now replaced job)
    : (b.enter replaced job).Shows id phase := by
  obtain ⟨card, found, inPhase⟩ := shows
  refine ⟨card, enter_card_after found admits ?_, inPhase⟩
  intro same
  obtain ⟨other, shown, alive, _⟩ := admits.replacedFree same
  rw [found] at shown
  obtain rfl := Option.some.inj shown
  rw [inPhase, terminal] at alive
  cases alive

/-- A finished job keeps its phase when children gather below a parent. -/
theorem Shows.filled {submitted : Bool} {children : List Job} {existingIds : List JobId}
    {p : FlowPlan} {parentCard : Card} (shows : b.Shows id phase)
    (gathers : b.Gathers now submitted parentId children existingIds p)
    (parent : id = parentId → parentCard.phase = phase)
    : (p.filled parentId parentCard).Shows id phase := by
  obtain ⟨card, found, inPhase⟩ := shows.retimed gathers.sifts.retimes
  by_cases isParent : id = parentId
  · refine ⟨parentCard, ?_, parent isParent⟩
    rw [isParent]
    exact gathers.parent_card
  · rcases gathers.card_after found isParent with ⟨_, shown⟩ | ⟨_, shown⟩
    · exact ⟨_, shown, inPhase⟩
    · exact ⟨_, shown, inPhase⟩

end Board

namespace InMemoryJobQueueState

variable {cron : Cron} {find : Find} {queue : QueueName} {s : InMemoryJobQueueState} {op : Op}
  {id : JobId} {phase : Phase} {job : Job} {now : DateTime} {after : Board}

theorem Submits.shows (submits : s.Submits job now after) (shows : s.board.Shows id phase)
    (terminal : phase.isTerminal = true)
    : after.Shows id phase := by
  cases submits with
  | answered => exact shows
  | admitted _ _ admits _ => exact shows.entered terminal admits
  | coalesced _ _ coalesces => exact shows.retimed coalesces.retimes

theorem shows_submitsEach {jobs : List Job} {t : InMemoryJobQueueState}
    (each : SubmitsEach find now s jobs t) (shows : s.board.Shows id phase)
    (terminal : phase.isTerminal = true)
    : t.board.Shows id phase := by
  induction each with
  | nil => exact shows
  | cons submits _ ih => exact ih (submits.shows shows terminal)

/-- After a step that does not retry it, a finished job is as finished as before or gone. In the
latter case its id may be taken over by a candidate, by cases on the change.
-/
theorem finished_step (cron : Cron) (find : Find) (queue : QueueName)
    (fresh : FreshIds s op) (shows : s.board.Shows id phase) (terminal : phase.isTerminal = true)
    (unretried : op.retriedId ≠ some id)
    : (step cron find queue s op).board.AtMost id phase
      ∨ ∃ now candidate, s.MayEnter op now candidate ∧ candidate.id = id := by
  have change := change_step cron find queue s op
  generalize (step cron find queue s op).board = after at change ⊢
  cases change with
  | settled settles => exact .inl (shows.atMost.settles terminal settles)
  | disowned =>
      refine .inl ?_
      intro card found
      rw [Board.disown_cards] at found
      split at found
      · next isOwner =>
          obtain ⟨old, shown, rfl⟩ := Option.map_eq_some_iff.mp found
          exact shows.atMost old (isOwner ▸ shown)
      · exact shows.atMost card found
  | detached _ _ settles =>
      refine .inl (Board.AtMost.settles ?_ terminal settles)
      intro card found
      obtain ⟨old, shown, rfl⟩ := Board.detached_card_before found
      exact shows.atMost old shown
  | @retried jobId now job _ enqueuedSeq found _ settles =>
      refine .inl (Board.AtMost.settles ?_ terminal settles)
      intro card shown
      have different : id ≠ jobId := by
        rintro rfl
        exact unretried rfl
      rw [Board.put_cards_ne different] at shown
      exact shows.atMost card shown
  | submitted submits => exact .inl (submits.shows shows terminal).atMost
  | submittedEach each => exact .inl (shows_submitsEach each shows terminal).atMost
  | upserted admits => exact .inl (shows.entered terminal admits).atMost
  | sifted _ _ sifts => exact .inl (shows.retimed sifts.retimes).atMost
  | coalesced _ _ _ coalesces => exact .inl (shows.retimed coalesces.retimes).atMost
  | @joined _ parentId _ _ p old parentCard _ _ retimed gathers _ _ ended settles =>
      refine .inl (Board.AtMost.settles (shows.filled gathers ?_).atMost terminal settles)
      rintro rfl
      have before := (shows.retimed gathers.sifts.retimes).atMost old retimed
      rw [ended (by rw [before]; exact terminal), before]
  | @created _ _ _ parentJob _ _ _ _ _ _ _ absent gathers _ _ _ _ settles =>
      refine .inl (Board.AtMost.settles (shows.filled gathers ?_).atMost terminal settles)
      rintro rfl
      obtain ⟨card, found, _⟩ := shows
      rw [absent] at found
      cases found
  | @concluded _ _ now settled ended _ removes _ finishes retires ends settles =>
      have within
          : ended.AtMost id phase
            ∨ ∃ candidate, s.MayEnter op now candidate ∧ candidate.id = id := by
        refine Stage.ownersEnd
          (fun b => b.AtMost id phase ∨ ∃ candidate, s.MayEnter op now candidate ∧ candidate.id = id)
          (.of_retires retires finishes) (.inl (shows.atMost.settles terminal retires.settles))
          (fun owner member => (finishes owner _).mpr ⟨member, rfl⟩) ?_ ?_ ends
        · exact fun within settles => within.imp_left (·.settles terminal settles)
        · intro b c owner admitted within ends enters
          by_cases taken : ∃ candidate, s.MayEnter op now candidate ∧ candidate.id = id
          · exact .inr taken
          · refine .inl ?_
            intro card found
            rcases ends.card_before found with ⟨old, shown, origin⟩ | ⟨job, member, same, _⟩
            · have before := within.resolve_right taken old shown
              rcases origin with rfl | ⟨_, _, _, _, rfl⟩ <;> exact before
            · exact absurd ⟨job, enters job member, same⟩ taken
      rcases within with atMost | ⟨candidate, enters, same⟩
      · exact .inl (atMost.settles terminal settles)
      · exact .inr ⟨now, candidate, enters, same⟩
  | @continued _ _ _ next _ _ _ _ _ _ _ generated _ retires same kept settles =>
      refine .inl (Board.AtMost.settles ?_ terminal settles)
      have ended := (shows.atMost.settles terminal retires.settles).settles terminal kept
      intro card found
      have different : id ≠ next.id := by
        rintro rfl
        obtain ⟨old, shown, _⟩ := shows
        rw [absent_of_fresh fresh generated] at shown
        cases shown
      rw [Board.put_cards_ne different] at found
      exact ended card found

-----------------------------------------------------------------------------------------
-- Spent tokens
-----------------------------------------------------------------------------------------

variable {token : JobLockToken}

theorem bars_of_unheld (unheld : ¬ s.HoldsToken id token) : s.lives.Bars id token := by
  intro l shown held
  obtain ⟨job, found, rfl⟩ := lives_some shown
  exact unheld ⟨job, found, held⟩

theorem not_held_of_bars (bars : s.lives.Bars id token) : ¬ s.HoldsToken id token := by
  rintro ⟨job, found, held⟩
  exact bars _ (lives_of_get found) held

/-- An operation on a lease is refused when the job does not hold the token, by cases on the
operation.
-/
theorem refuses_unheld (cron : Cron) (find : Find) (queue : QueueName)
    (unheld : ¬ s.HoldsToken id token) (acts : op.actsOnLease = some (id, token))
    : ∃ error, perform cron find queue s op = (s, .error error) := by
  have owned (action : String) : ∃ error, s.requireOwnedActive id token action = .error error := by
    cases outcome : s.requireOwnedActive id token action with
    | error error => exact ⟨error, rfl⟩
    | ok job =>
        obtain ⟨found, _, held⟩ := requireOwnedActive_ok outcome
        exact absurd ⟨job, found, held⟩ unheld
  have fails (error : String) (now : DateTime) (allowRetry : Bool)
      : ∃ refusal, s.failActiveJob id token error now allowRetry = (s, .error refusal) := by
    obtain ⟨refusal, refused⟩ := owned "fail"
    exact ⟨refusal, by simp only [failActiveJob, refused]⟩
  cases op <;> cases acts
  case addFlowChildrenAt children now =>
    have parent : ∃ error, s.requireFanOutParent id token = .error error := by
      cases outcome : s.requireFanOutParent id token with
      | error error => exact ⟨error, rfl⟩
      | ok job =>
          obtain ⟨found, _, held⟩ := requireFanOutParent_ok outcome
          exact absurd ⟨job, found, held⟩ unheld
    obtain ⟨refusal, refused⟩ := parent
    have children
        : ∃ error, s.addFlowChildrenAt cron find queue id token children now = (s, .error error) := by
      unfold addFlowChildrenAt
      split
      · exact ⟨_, rfl⟩
      · split
        · exact ⟨_, rfl⟩
        · simp only
          split
          · exact ⟨_, rfl⟩
          · simp only [addFlowChildrenLocked, refused]
            exact ⟨_, rfl⟩
    obtain ⟨error, refused⟩ := children
    exact ⟨error, by simp only [perform, refused, answered, Except.map]⟩
  case renew leaseFor now =>
    obtain ⟨refusal, refused⟩ := owned "renew lease"
    exact ⟨refusal, by simp only [perform, renew, refused, answered, Except.map]⟩
  case delayActive delay now =>
    obtain ⟨refusal, refused⟩ := owned "delay active"
    exact ⟨refusal, by simp only [perform, delayActive, refused, answered, Except.map]⟩
  case releaseActive now =>
    obtain ⟨refusal, refused⟩ := owned "release active"
    exact ⟨refusal, by simp only [perform, releaseActive, refused, answered, Except.map]⟩
  case completeJob value now uuid =>
    have completable : ∃ error, s.requireCompletable id token = .error error := by
      cases outcome : s.requireCompletable id token with
      | error error => exact ⟨error, rfl⟩
      | ok job =>
          obtain ⟨found, _, held⟩ := requireCompletable_ok outcome
          exact absurd ⟨job, found, held⟩ unheld
    obtain ⟨refusal, refused⟩ := completable
    exact ⟨refusal, by simp only [perform, completeJob, refused, answered, Except.map]⟩
  case failJob error now =>
    obtain ⟨refusal, refused⟩ := fails error now true
    exact ⟨refusal, by simp only [perform, failJob, refused, answered, Except.map]⟩
  case failJobDiscardingRetry error now =>
    obtain ⟨refusal, refused⟩ := fails error now false
    exact ⟨refusal, by simp only [perform, failJobDiscardingRetry, refused, answered, Except.map]⟩

end InMemoryJobQueueState

-----------------------------------------------------------------------------------------
-- Runs with fresh tokens
-----------------------------------------------------------------------------------------

/-- The queue with the lock tokens that it has handed out: a claim hands out a new one. -/
def tokenQueueSystem (cron : Cron) (queue : QueueName)
    : LabelledSystem (InMemoryJobQueueState × Set JobLockToken) Call where
  Step before call after :=
    (queueSystem cron queue).Step before.1 call after.1
      ∧ (∀ token, call.op.claimToken = some token → token ∉ before.2)
      ∧ after.2 = before.2 ∪ {token | call.op.claimToken = some token}

open InMemoryJobQueueState in
/-- Jobs hold only tokens that were handed out, along a run. -/
theorem known_run {cron : Cron} {queue : QueueName} {s : InMemoryJobQueueState}
    {used : Set JobLockToken}
    (run : (tokenQueueSystem cron queue).Reaches ({}, ∅) (s, used))
    : s.lives.Every (Life.Known used) := by
  refine run.invariant (fun state => state.1.lives.Every (Life.Known state.2))
    (Lives.every_of_empty (fun _ => rfl)) ?_
  rintro ⟨s, used⟩ call ⟨t, more⟩ known _ ⟨⟨_, rfl⟩, _, rfl⟩
  obtain ⟨_, turns⟩ := turned_step cron call.find queue s call.op
  refine turns.known (fun id l shown token held => .inl (known id l shown token held)) ?_
  exact fun token claimed => .inr claimed

open InMemoryJobQueueState in
/-- A job does not come to hold a token again that was handed out before, along a run. -/
theorem barred_run {cron : Cron} {queue : QueueName} {s t : InMemoryJobQueueState}
    {used more : Set JobLockToken} {id : JobId} {token : JobLockToken}
    (run : (tokenQueueSystem cron queue).Reaches (s, used) (t, more)) (spent : token ∈ used)
    (unheld : ¬ s.HoldsToken id token)
    : ¬ t.HoldsToken id token := by
  have barred : token ∈ more ∧ t.lives.Bars id token := by
    refine run.invariant (fun state => token ∈ state.2 ∧ state.1.lives.Bars id token)
      ⟨spent, bars_of_unheld unheld⟩ ?_
    rintro ⟨s, used⟩ call ⟨t, more⟩ ⟨spent, bars⟩ _ ⟨⟨_, rfl⟩, unused, rfl⟩
    obtain ⟨_, turns⟩ := turned_step cron call.find queue s call.op
    exact ⟨.inl spent, turns.bars bars (fun claimed => unused token claimed spent)⟩
  exact not_held_of_bars barred.2

open InMemoryJobQueueState in
theorem used_run {cron : Cron} {queue : QueueName} {s t : InMemoryJobQueueState}
    {used more : Set JobLockToken}
    (run : (tokenQueueSystem cron queue).Reaches (s, used) (t, more))
    : used ⊆ more := by
  refine run.invariant (fun state => used ⊆ state.2) (subset_refl _) ?_
  rintro ⟨s, before⟩ call ⟨t, after⟩ within _ ⟨_, _, rfl⟩
  exact within.trans Set.subset_union_left

open InMemoryJobQueueState in
/-- Every retained job is coherent, along a run. -/
theorem coherent_of_reachable {cron : Cron} {queue : QueueName} {s : InMemoryJobQueueState}
    (run : Reachable cron queue s) {id : JobId} {job : Job} (found : s.jobs.get id = some job)
    : job.Coherent := by
  have every : s.lives.Every Life.Coherent := by
    refine run.invariant (fun s => s.lives.Every Life.Coherent)
      (Lives.every_of_empty (fun _ => rfl)) ?_
    rintro s call _ every _ ⟨_, rfl⟩
    exact coherent_step cron call.find queue call.op every
  exact coherent_of_life (every id _ (lives_of_get found))

/-- The tokens that calls hand out. -/
def claimTokens (calls : List Call) : List JobLockToken :=
  calls.filterMap (fun call => call.op.claimToken)

/-- Serving calls that hand out distinct new tokens is a run with fresh tokens, by induction on
the calls.
-/
theorem tokenRun_serve {cron : Cron} {queue : QueueName} {s : InMemoryJobQueueState}
    {calls : List Call} (before : List JobLockToken) (fresh : FreshCalls cron queue s calls)
    (distinct : (before ++ claimTokens calls).Nodup)
    : (tokenQueueSystem cron queue).Reaches (s, {token | token ∈ before})
        (serve cron queue s calls, {token | token ∈ before ++ claimTokens calls}) := by
  induction calls generalizing s before with
  | nil =>
      rw [show claimTokens [] = [] from rfl, List.append_nil]
      exact .refl _
  | cons call rest ih =>
      have tokens
          : claimTokens (call :: rest) = call.op.claimToken.toList ++ claimTokens rest := by
        unfold claimTokens
        rw [List.filterMap_cons]
        cases call.op.claimToken <;> rfl
      rw [tokens, ← List.append_assoc] at distinct ⊢
      refine LabelledSystem.Run.trans (.single (a := call) trivial ⟨⟨fresh.1, rfl⟩, ?_, ?_⟩)
        (ih (before ++ call.op.claimToken.toList) fresh.2 distinct)
      · intro token claimed used
        rw [claimed] at distinct
        exact (List.nodup_append.mp (List.nodup_append.mp distinct).1).2.2 token used token
          List.mem_cons_self rfl
      · ext token
        simp

/-- A job that is claimed. -/
def claimedWork : List Call :=
  [ { op := .addAt "work" .null {} 0 "first" },
    { op := .claimNext "worker" 10 1 "lease" } ]

/-- The completion of the claimed job. -/
def completion : List Call := [{ op := .completeJob "first" "lease" .null 2 "next" }]

end Lane
