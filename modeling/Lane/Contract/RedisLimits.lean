import Lane.Contract.RedisLeases
import Lane.Library.FixedWindow

/-! The limits of a Redis queue over whole histories: no more jobs are active than the concurrency
allows, and no more are claimed in any stretch of time than the rate allows.
-/

namespace Lane

open LeaseTable

variable {start : RedisServer} {history : RedisHistory}

-----------------------------------------------------------------------------------------
-- Active jobs
-----------------------------------------------------------------------------------------

namespace SortedSet

theorem card_eq (set : SortedSet) : set.card = set.keys.length := by
  rw [card, AList.keys, List.keys, List.length_map]

/-- A set with fewer members is smaller. -/
theorem card_le {set other : SortedSet}
    (fewer : ∀ id, (set.lookup id).isSome = true → (other.lookup id).isSome = true)
    : set.card ≤ other.card := by
  rw [card_eq, card_eq]
  refine (set.keys_nodup.subperm ?_).length_le
  intro id member
  exact AList.lookup_isSome.mp (fewer id (AList.lookup_isSome.mpr member))

theorem card_add_le (set : SortedSet) (score : Int) (member : String)
    : (set.add score member).card ≤ set.card + 1 := by
  rw [card_eq, card_eq, SortedSet.add, AList.keys_insert, List.length_cons]
  exact Nat.succ_le_succ List.length_erase_le

end SortedSet

namespace RedisServer

variable {s : RedisServer} {table : LeaseTable JobId JobLockToken}

/-- Without a grant the active set does not grow. -/
theorem Tracks.card_le {after : RedisServer} {events : List RedisEvent} (tracks : Tracks table s)
    (follows : Follows table events after) (silent : ∀ event ∈ events, event.grants = false)
    : after.keys.active.card ≤ s.keys.active.card := by
  refine SortedSet.card_le ?_
  intro id active
  rw [follows.tracks.active] at active
  rw [tracks.active]
  exact nextAll_held silent follows.legal active

theorem renewLeases_silent (s : RedisServer) (leaseFor : Duration) (now : DateTime)
    (renewals : List JobLeaseRenewal)
    : ∀ event ∈ (s.renewLeases leaseFor now renewals).2, event.grants = false := by
  induction renewals generalizing s with
  | nil =>
      intro event member
      cases member
  | cons renewal rest ih =>
      unfold renewLeases
      split
      · exact ih s
      · intro event member
        rcases List.mem_cons.mp member with rfl | later
        · rfl
        · exact ih _ event later

theorem endedBy_silent (s : RedisServer) (jobId : JobId) (lockToken : JobLockToken)
    (accepted : Bool)
    : ∀ event ∈ s.endedBy jobId lockToken accepted, event.grants = false := by
  intro event member
  unfold endedBy at member
  split at member
  · rw [List.mem_singleton.mp member]
    rfl
  · cases member

/-- Only claims grant leases. -/
theorem serve_silent (s : RedisServer) {request : RedisRequest}
    (other : ∀ args, request ≠ .claimNext args)
    : ∀ event ∈ (s.serve request).2, event.grants = false := by
  cases request with
  | claimNext args => exact absurd rfl (other args)
  | completeJob args => exact s.endedBy_silent _ _ _
  | failJob args => exact s.endedBy_silent _ _ _
  | renewLease jobId lockToken leaseFor now =>
      intro event member
      simp only [serve] at member
      split at member
      · rw [List.mem_singleton.mp member]
        rfl
      · cases member
  | renewLeases renewals leaseFor now => exact s.renewLeases_silent leaseFor now renewals
  | delayActiveJob jobId lockToken delay now => exact s.endedBy_silent _ _ _
  | releaseActiveJob jobId lockToken now => exact s.endedBy_silent _ _ _
  | recoverStalled popped now =>
      intro event member
      obtain ⟨id, _, rfl⟩ := List.mem_map.mp member
      rfl
  | _ =>
      intro event member
      cases member

theorem renewLeases_rest (s : RedisServer) (leaseFor : Duration) (now : DateTime)
    (renewals : List JobLeaseRenewal)
    : (s.renewLeases leaseFor now renewals).1.metaHash = s.metaHash
      ∧ (s.renewLeases leaseFor now renewals).1.counter = s.counter
      ∧ (s.renewLeases leaseFor now renewals).1.clock = s.clock := by
  induction renewals generalizing s with
  | nil => exact ⟨rfl, rfl, rfl⟩
  | cons renewal rest ih =>
      unfold renewLeases
      split
      · exact ih s
      · exact ih _

theorem readied_rest (s : RedisServer) (now : DateTime)
    : (s.readied now).metaHash.concurrency = s.metaHash.concurrency
      ∧ (s.readied now).counter = s.counter
      ∧ ∀ args, (s.readied now).rateLimitOf args = s.rateLimitOf args := by
  unfold readied promote isPausedOrMaxed
  split
  · exact ⟨rfl, rfl, fun _ => rfl⟩
  · split <;> exact ⟨rfl, rfl, fun _ => rfl⟩

/-- A blocked queue is one that is paused, or has as many active jobs as it may have. -/
theorem card_lt_of_runs {limit : Nat} (runs : s.isPausedOrMaxed.2 = false)
    (limited : s.metaHash.concurrency = some limit) (positive : 0 < limit)
    : s.keys.active.card < limit := by
  have unblocked : s.isMaxed = false := by
    unfold isPausedOrMaxed at runs
    split at runs
    · exact runs
    · split at runs
      · cases runs
      · exact runs
  simpa [isMaxed, limited, positive] using unblocked

end RedisServer

/-- The request keeps a concurrency of at most `limit`. -/
def RedisRequest.KeepsConcurrency (limit : Nat) : RedisRequest → Prop
  | .setMaxActiveJobs maxActiveJobs => maxActiveJobs ≤ limit
  | .clearMaxActiveJobs => False
  | _ => True

/-- The queue has a concurrency of at most `limit`, and no more active jobs. -/
structure RedisServer.Capped (limit : Nat) (s : RedisServer) : Prop where
  concurrency : ∃ concurrency, s.metaHash.concurrency = some concurrency
    ∧ 0 < concurrency ∧ concurrency ≤ limit
  active : s.keys.active.card ≤ limit

/-- The settings other than the concurrency leave it as it is. -/
theorem RedisServer.serve_concurrency (s : RedisServer) {request : RedisRequest}
    (other : ∀ maxActiveJobs, request ≠ .setMaxActiveJobs maxActiveJobs)
    (kept : request ≠ .clearMaxActiveJobs) (claimless : ∀ args, request ≠ .claimNext args)
    : (s.serve request).1.metaHash.concurrency = s.metaHash.concurrency := by
  cases request with
  | setMaxActiveJobs maxActiveJobs => exact absurd rfl (other maxActiveJobs)
  | clearMaxActiveJobs => exact absurd rfl kept
  | claimNext args => exact absurd rfl (claimless args)
  | renewLease jobId lockToken leaseFor now =>
      simp only [serve]
      split <;> rfl
  | renewLeases renewals leaseFor now =>
      exact congrArg QueueMeta.concurrency (s.renewLeases_rest leaseFor now renewals).1
  | getClaimRateLimitTtl maxClaims =>
      simp only [serve, claimRateLimitTtl]
      split
      · rfl
      · split <;> rfl
  | _ => rfl

/-- One request. -/
theorem RedisServer.Capped.serve {s : RedisServer} {table : LeaseTable JobId JobLockToken}
    {limit : Nat} {request : RedisRequest} (capped : s.Capped limit) (tracks : s.Tracks table)
    (made : request.Made s) (keeps : request.KeepsConcurrency limit)
    : (s.serve request).1.Capped limit := by
  have follows := tracks.serve made
  by_cases claim : ∃ args, request = .claimNext args
  · obtain ⟨args, rfl⟩ := claim
    obtain ⟨concurrency, limited, positive, within⟩ := capped.concurrency
    have ready := (tracks.readied args.now).inOrder
    have files := readied_files tracks.inOrder args.now
    have settings := (s.readied_rest args.now).1
    rcases claim_cases ready with ⟨none, _⟩ | ⟨jobId, job, _, runs, _, _, _, taken⟩
    · simp only [RedisServer.serve, none]
      refine ⟨⟨concurrency, settings.trans limited, positive, within⟩, ?_⟩
      rw [files.steady.active]
      exact capped.active
    · have room := card_lt_of_runs runs limited positive
      simp only [RedisServer.serve, taken]
      refine ⟨⟨concurrency, ?_, positive, within⟩, ?_⟩
      · rw [claimed_metaHash, settings, limited]
      · have keys : ((s.readied args.now).claimed args jobId job).keys.active
            = (s.readied args.now).keys.active.add (timestampMillis args.leaseExpiresAt) jobId :=
          (claimJob_steady _ args jobId job).1
        rw [keys]
        refine (SortedSet.card_add_le _ _ _).trans ?_
        rw [files.steady.active]
        omega
  · have claimless : ∀ args, request ≠ .claimNext args := fun args same => claim ⟨args, same⟩
    have fewer := tracks.card_le follows (s.serve_silent claimless)
    refine ⟨?_, fewer.trans capped.active⟩
    by_cases sets : ∃ maxActiveJobs, request = .setMaxActiveJobs maxActiveJobs
    · obtain ⟨maxActiveJobs, rfl⟩ := sets
      exact ⟨maxActiveJobs, rfl, made, keeps⟩
    · have kept : request ≠ .clearMaxActiveJobs := by
        rintro rfl
        exact keeps
      rw [s.serve_concurrency (fun number same => sets ⟨number, same⟩) kept claimless]
      exact capped.concurrency

/-- A queue for one job at a time. -/
def singleStart : RedisServer := { metaHash := { concurrency := some 1 } }

open FixedWindow

/-- When jobs were claimed. -/
def RedisHistory.claimTimes (history : RedisHistory) : List Int :=
  history.events.filterMap Event.grantTime

/-- The request keeps a rate of at most `max` claims in `span` milliseconds: a claim is made under such
a limit, and the counter is neither deleted nor given a shorter time.
-/
def RedisRequest.KeepsRate (max span : Nat) (s : RedisServer) : RedisRequest → Prop
  | .claimNext args =>
      0 < (s.rateLimitOf args).1 ∧ (s.rateLimitOf args).1 ≤ max ∧ span ≤ (s.rateLimitOf args).2
  | .rateLimitClaimsFor duration => span ≤ lockDurationMillis duration
  | .clearClaimRateLimitKey => False
  | _ => True

/-- The counter stands for the latest window: while it exists it counts the window's claims, and it
does not expire before the window has passed.
-/
structure ClaimCounts (max span : Nat) (s : RedisServer) (windows : List Window) : Prop where
  opened : Windows max span windows
  past : ∀ time ∈ admissions windows, time ≤ s.clock
  started : ∀ last ∈ windows.head?, last.start ≤ s.clock
  idle : s.counter = none → ∀ last ∈ windows.head?, last.start + span ≤ s.clock
  counted
    : ∀ counter, s.counter = some counter
      → max ≤ counter.count ∨ ∃ last ∈ windows.head?, last.times.length ≤ counter.count
  lasts
    : ∀ counter, s.counter = some counter
      → ∀ last ∈ windows.head?,
          ∃ pttl, counter.pttl = some pttl ∧ last.start + span ≤ s.clock + pttl

namespace ClaimCounts

variable {max span : Nat} {s after : RedisServer} {windows : List Window}

/-- The counter is deleted when the window has passed. -/
theorem expires (counts : ClaimCounts max span s windows) (later : s.clock ≤ after.clock)
    (gone : after.counter = none)
    (passed : ∀ last ∈ windows.head?, last.start + span ≤ after.clock)
    : ClaimCounts max span after windows where
  opened := counts.opened
  past time member := (counts.past time member).trans later
  started last first := (counts.started last first).trans later
  idle _ := passed
  counted counter same := by rw [gone] at same; cases same
  lasts counter same := by rw [gone] at same; cases same

/-- Nothing happens to the counter. -/
theorem quiet (counts : ClaimCounts max span s windows) (clock : after.clock = s.clock)
    (counter : after.counter = s.counter)
    : ClaimCounts max span after windows where
  opened := counts.opened
  past := by rw [clock]; exact counts.past
  started := by rw [clock]; exact counts.started
  idle := by rw [clock, counter]; exact counts.idle
  counted := by rw [counter]; exact counts.counted
  lasts := by rw [clock, counter]; exact counts.lasts

/-- An override takes the limit up for longer than the window lasts. -/
theorem overrides (counts : ClaimCounts max span s windows) {duration : Nat} (long : span ≤ duration)
    (representable : max ≤ u64Max)
    : ClaimCounts max span { s with counter := some { count := u64Max, pttl := some duration } }
        windows where
  opened := counts.opened
  past := counts.past
  started := counts.started
  idle gone := by cases gone
  counted counter same := by
    cases same
    exact .inl representable
  lasts counter same last first := by
    cases same
    refine ⟨duration, rfl, ?_⟩
    have started := counts.started last first
    dsimp only
    omega

/-- Time passes. -/
theorem elapse (counts : ClaimCounts max span s windows) (elapsed : Nat)
    : ClaimCounts max span (s.elapse elapsed) windows := by
  have later : s.clock ≤ (s.elapse elapsed).clock := by
    simp only [RedisServer.elapse]
    omega
  cases counted : s.counter with
  | none =>
      refine counts.expires later (by simp [RedisServer.elapse, counted]) ?_
      intro last first
      exact (counts.idle counted last first).trans later
  | some counter =>
      cases left : counter.after elapsed with
      | none =>
          refine counts.expires later (by simp [RedisServer.elapse, counted, left]) ?_
          intro last first
          obtain ⟨pttl, time, lasts⟩ := counts.lasts counter counted last first
          simp only [ClaimCounter.after, time, remaining] at left
          split at left
          · cases left
          · simp only [RedisServer.elapse]
            omega
      | some rest =>
          have same : (s.elapse elapsed).counter = some rest := by
            simp [RedisServer.elapse, counted, left]
          refine ⟨counts.opened, fun time member => (counts.past time member).trans later,
            fun last first => (counts.started last first).trans later, ?_, ?_, ?_⟩
          · intro gone
            rw [same] at gone
            cases gone
          · intro other known
            rw [same] at known
            cases known
            have count : rest.count = counter.count := by
              unfold ClaimCounter.after at left
              split at left
              · cases left
                rfl
              · obtain ⟨pttl, _, rfl⟩ := Option.map_eq_some_iff.mp left
                rfl
            rw [count]
            exact counts.counted counter counted
          · intro other known last first
            rw [same] at known
            cases known
            obtain ⟨pttl, time, lasts⟩ := counts.lasts counter counted last first
            simp only [ClaimCounter.after, time, remaining] at left
            split at left
            · next within =>
                simp only [Option.map_some, Option.some.injEq] at left
                rw [← left]
                refine ⟨pttl - elapsed, rfl, ?_⟩
                simp only [RedisServer.elapse]
                omega
            · cases left

/-- A claim is counted, in the window that is open or in a new one. -/
theorem claims (counts : ClaimCounts max span s windows) {limit duration : Nat} (positive : 0 < limit)
    (within : limit ≤ max) (long : span ≤ duration) (free : s.currentClaims < limit)
    : ∃ next,
        ClaimCounts max span (s.countClaim duration) next
        ∧ (admissions next).Perm (s.clock :: admissions windows) := by
  cases counted : s.counter with
  | none =>
      have opened := counts.opened.opens (positive.trans_le within) counts.past
        (counts.idle counted)
      have counter : (s.countClaim duration).counter = some { count := 1, pttl := some duration } := by
        simp [RedisServer.countClaim, counted]
      refine ⟨_, ⟨opened, ?_, ?_, ?_, ?_, ?_⟩, .refl _⟩
      · intro time member
        rcases List.mem_cons.mp member with rfl | earlier
        · exact le_rfl
        · exact counts.past time earlier
      · intro last first
        cases first
        exact le_rfl
      · intro gone
        rw [counter] at gone
        cases gone
      · intro other known
        rw [counter] at known
        cases known
        exact .inr ⟨_, rfl, le_rfl⟩
      · intro other known last first
        rw [counter] at known
        cases known
        cases first
        exact ⟨duration, rfl, by simpa [RedisServer.countClaim] using long⟩
  | some old =>
      have room : old.count < max := by
        rw [RedisServer.currentClaims, counted] at free
        exact (show old.count < limit from free).trans_le within
      rcases counts.counted old counted with full | ⟨last, first, few⟩
      · omega
      · obtain ⟨rest, rfl⟩ : ∃ rest, windows = last :: rest := by
          cases windows with
          | nil => cases first
          | cons head rest =>
              cases first
              exact ⟨rest, rfl⟩
        have started := counts.started last rfl
        obtain ⟨pttl, time, lasts⟩ := counts.lasts old counted last rfl
        obtain ⟨counter, known, count, expiry, left, lastsOn⟩
            : ∃ counter, (s.countClaim duration).counter = some counter
                ∧ counter.count = old.count + 1
                ∧ ∃ expiry, counter.pttl = some expiry ∧ last.start + span ≤ s.clock + expiry := by
          by_cases first : old.count + 1 = 1
          · refine ⟨{ count := old.count + 1, pttl := some duration }, ?_, rfl, duration, rfl, ?_⟩
            · simp only [RedisServer.countClaim, counted, Option.getD_some, if_pos first]
            · omega
          · refine ⟨{ old with count := old.count + 1 }, ?_, rfl, pttl, time, lasts⟩
            simp only [RedisServer.countClaim, counted, Option.getD_some, if_neg first]
        refine ⟨_, ⟨counts.opened.admits (few.trans_lt room) started, ?_, ?_, ?_, ?_, ?_⟩, .refl _⟩
        · intro admitted member
          rcases List.mem_cons.mp member with rfl | earlier
          · exact le_rfl
          · exact counts.past admitted earlier
        · intro latest same
          cases same
          exact started
        · intro gone
          rw [known] at gone
          cases gone
        · intro other same
          rw [known] at same
          cases same
          refine .inr ⟨_, rfl, ?_⟩
          rw [count]
          exact Nat.succ_le_succ few
        · intro other same latest first
          rw [known] at same
          cases same
          cases first
          exact ⟨expiry, left, lastsOn⟩

end ClaimCounts

/-- The counter outlives a request that neither claims nor is about it. -/
theorem RedisServer.serve_counter (s : RedisServer) {request : RedisRequest}
    (claimless : ∀ args, request ≠ .claimNext args) (timeless : ∀ elapsed, request ≠ .elapse elapsed)
    (kept : request ≠ .clearClaimRateLimitKey)
    (plain : ∀ duration, request ≠ .rateLimitClaimsFor duration)
    (unread : ∀ maxClaims, request ≠ .getClaimRateLimitTtl maxClaims)
    : (s.serve request).1.clock = s.clock ∧ (s.serve request).1.counter = s.counter := by
  cases request with
  | claimNext args => exact absurd rfl (claimless args)
  | elapse elapsed => exact absurd rfl (timeless elapsed)
  | clearClaimRateLimitKey => exact absurd rfl kept
  | rateLimitClaimsFor duration => exact absurd rfl (plain duration)
  | getClaimRateLimitTtl maxClaims => exact absurd rfl (unread maxClaims)
  | renewLease jobId lockToken leaseFor now =>
      simp only [serve]
      split <;> exact ⟨rfl, rfl⟩
  | renewLeases renewals leaseFor now =>
      obtain ⟨_, counter, clock⟩ := s.renewLeases_rest leaseFor now renewals
      exact ⟨clock, counter⟩
  | _ => exact ⟨rfl, rfl⟩

/-- A request that does not claim. -/
theorem ClaimCounts.serve {max span : Nat} {s : RedisServer} {windows : List Window}
    {request : RedisRequest} (counts : ClaimCounts max span s windows)
    (claimless : ∀ args, request ≠ .claimNext args) (representable : max ≤ u64Max)
    (keeps : request.KeepsRate max span s)
    : ClaimCounts max span (s.serve request).1 windows := by
  by_cases timed : ∃ elapsed, request = .elapse elapsed
  · obtain ⟨elapsed, rfl⟩ := timed
    exact counts.elapse elapsed
  by_cases overridden : ∃ duration, request = .rateLimitClaimsFor duration
  · obtain ⟨duration, rfl⟩ := overridden
    exact counts.overrides keeps representable
  by_cases read : ∃ maxClaims, request = .getClaimRateLimitTtl maxClaims
  · obtain ⟨maxClaims, rfl⟩ := read
    have rest := s.claimRateLimitTtl_rest maxClaims
    simp only [RedisServer.serve]
    unfold RedisServer.claimRateLimitTtl at rest ⊢
    split
    · exact counts
    · split
      · next used =>
          refine counts.expires le_rfl rfl ?_
          intro last first
          obtain ⟨counter, counted, spent⟩ := Option.bind_eq_some_iff.mp used.2
          obtain ⟨pttl, time, lasts⟩ := counts.lasts counter counted last first
          rw [spent] at time
          cases time
          simpa using lasts
      · exact counts
  have kept : request ≠ .clearClaimRateLimitKey := by
    rintro rfl
    exact keeps
  obtain ⟨clock, counter⟩ := s.serve_counter claimless (fun elapsed same => timed ⟨elapsed, same⟩) kept
    (fun duration same => overridden ⟨duration, same⟩) (fun number same => read ⟨number, same⟩)
  exact counts.quiet clock counter

/-- The claims so far were counted in windows. -/
structure RedisHistory.Rated (max span : Nat) (history : RedisHistory) : Prop where
  lawful : history.Lawful
  counts
    : ∃ windows,
        ClaimCounts max span history.server windows ∧ history.claimTimes.Perm (admissions windows)

theorem RedisHistory.Rated.step {max span : Nat} {after : RedisHistory} {request : RedisRequest}
    (rated : history.Rated max span) (representable : max ≤ u64Max)
    (keeps : request.KeepsRate max span history.server)
    (step : redisSystem.Step history request after)
    : after.Rated max span := by
  refine ⟨rated.lawful.step step, ?_⟩
  obtain ⟨made, rfl⟩ := step
  obtain ⟨windows, counts, same⟩ := rated.counts
  by_cases claim : ∃ args, request = .claimNext args
  · obtain ⟨args, rfl⟩ := claim
    have ready := (rated.lawful.tracks.readied args.now).inOrder
    obtain ⟨_, counter, limits⟩ := history.server.readied_rest args.now
    have clock := (history.server.readied_lockTtl args.now).2
    have readied : ClaimCounts max span (history.server.readied args.now) windows :=
      counts.quiet clock counter
    rcases RedisServer.claim_cases ready with ⟨none, _⟩ | ⟨jobId, job, free, _, _, _, _, taken⟩
    · refine ⟨windows, ?_, ?_⟩
      · simpa only [RedisHistory.after, RedisServer.serve, none] using readied
      · simpa [RedisHistory.claimTimes, RedisHistory.after, RedisServer.serve, none] using same
    · obtain ⟨positive, within, long⟩ := keeps
      rw [← limits args] at positive within long
      have room : (history.server.readied args.now).currentClaims
          < ((history.server.readied args.now).rateLimitOf args).1 := by
        by_contra full
        exact free ⟨positive, not_lt.mp full⟩
      obtain ⟨next, counted, order⟩ := readied.claims positive within long room
      have sameCounter : ((history.server.readied args.now).claimed args jobId job).counter
          = ((history.server.readied args.now).countClaim
              ((history.server.readied args.now).rateLimitOf args).2).counter := by
        unfold RedisServer.claimed
        simp only [positive, if_true]
        rfl
      have sameClock : ((history.server.readied args.now).claimed args jobId job).clock
          = ((history.server.readied args.now).countClaim
              ((history.server.readied args.now).rateLimitOf args).2).clock :=
        RedisServer.claimed_clock _ args jobId job
      refine ⟨next, ?_, ?_⟩
      · simp only [RedisHistory.after, RedisServer.serve, taken]
        exact counted.quiet sameClock sameCounter
      · have times : (history.after (.claimNext args)).claimTimes
            = history.claimTimes ++ [history.server.clock] := by
          simp [RedisHistory.claimTimes, RedisHistory.after, RedisServer.serve, taken,
            Event.grantTime]
        rw [times, ← clock]
        exact (List.perm_append_singleton _ _).trans ((same.cons _).trans order.symm)
  · have claimless : ∀ args, request ≠ .claimNext args := fun args same => claim ⟨args, same⟩
    refine ⟨windows, counts.serve claimless representable keeps, ?_⟩
    have none : (history.server.serve request).2.filterMap Event.grantTime = [] := by
      rw [List.filterMap_eq_nil_iff]
      intro event member
      exact Event.grantTime_eq_none (history.server.serve_silent claimless event member)
    have times : (history.after request).claimTimes = history.claimTimes := by
      rw [RedisHistory.claimTimes, RedisHistory.after, List.filterMap_append, none, List.append_nil]
      rfl
    rw [times]
    exact same

/-- A queue for one claim in a second. -/
def ratedStart : RedisServer := { metaHash := { max := some 1, duration := some 1000 } }

end Lane
