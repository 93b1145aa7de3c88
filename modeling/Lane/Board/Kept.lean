import Lane.Board.Parents

/-! What admission, deduplication TTLs and keep-last candidates do to the board. -/

namespace Lane

namespace Board

variable {b : Board} {id other parentId childId : JobId} {card : Card} {jobs : List Job}

/-- Changes the time at which a job's deduplication id expires. -/
def expire (b : Board) (id : JobId) (expiresAt : Option DateTime) : Board :=
  { b with
    cards :=
      Function.update b.cards id
        ((b.cards id).map (fun card => { card with deduplicationExpiresAt := expiresAt })) }

/-- Lists a child on a job's card, unless it is listed already. -/
def addChild (b : Board) (id childId : JobId) : Board :=
  { b with
    cards :=
      Function.update b.cards id
        ((b.cards id).map (fun card =>
          if childId ∈ card.childIds then
            card
          else
            { card with childIds := card.childIds ++ [childId] })) }

/-- Lists a job on the card of the parent it names. -/
def adopt (b : Board) (job : Job) : Board :=
  match job.parentId with
  | none => b
  | some parentId => b.addChild parentId job.id

/-- Puts the cards of newly admitted jobs. -/
def putAll (b : Board) (jobs : List Job) : Board :=
  jobs.foldl (fun b job => b.put job.id job.freshCard) b

@[simp] theorem expire_next {expiresAt} : (b.expire id expiresAt).next = b.next := rfl
@[simp] theorem expire_nextFlows {expiresAt}
    : (b.expire id expiresAt).nextFlows = b.nextFlows := rfl
@[simp] theorem addChild_next : (b.addChild id childId).next = b.next := rfl
@[simp] theorem addChild_nextFlows : (b.addChild id childId).nextFlows = b.nextFlows := rfl

@[simp] theorem adopt_next {job : Job} : (b.adopt job).next = b.next := by
  unfold adopt
  split <;> rfl

@[simp] theorem adopt_nextFlows {job : Job} : (b.adopt job).nextFlows = b.nextFlows := by
  unfold adopt
  split <;> rfl

@[simp] theorem keep_cards {key : String} {job : Option Job} {flow : Option JobFlow}
    : (b.keep key job flow).cards = b.cards := rfl

/-- The last change of what is kept for a key counts. -/
theorem keep_keep {key : String} {job newJob : Option Job} {flow newFlow : Option JobFlow}
    : (b.keep key job flow).keep key newJob newFlow = b.keep key newJob newFlow := by
  simp [keep]

/-- Admission and what is kept do not interfere, by induction on the admitted jobs. -/
theorem keep_putAll {key : String} {job : Option Job} {flow : Option JobFlow}
    : (b.keep key job flow).putAll jobs = (b.putAll jobs).keep key job flow := by
  induction jobs generalizing b with
  | nil => rfl
  | cons first rest ih => exact ih (b := b.put first.id first.freshCard)

theorem keep_adopt {key : String} {kept : Option Job} {flow : Option JobFlow} {job : Job}
    : (b.keep key kept flow).adopt job = (b.adopt job).keep key kept flow := by
  unfold adopt
  split <;> rfl

theorem expire_cards (b : Board) (id : JobId) (expiresAt : Option DateTime) (other : JobId)
    : (b.expire id expiresAt).cards other
      = if other = id then
          (b.cards id).map (fun card => { card with deduplicationExpiresAt := expiresAt })
        else
          b.cards other := by
  simp [expire, Function.update_apply]

theorem addChild_cards (b : Board) (id childId other : JobId)
    : (b.addChild id childId).cards other
      = if other = id then
          (b.cards id).map (fun card =>
            if childId ∈ card.childIds then
              card
            else
              { card with childIds := card.childIds ++ [childId] })
        else
          b.cards other := by
  simp [addChild, Function.update_apply]

/-- Listing a child only appends it to one card's child list. -/
theorem addChild_cards_some (found : (b.addChild id childId).cards other = some card)
    : ∃ old,
        b.cards other = some old
        ∧ (card = old
          ∨ other = id
            ∧ childId ∉ old.childIds
            ∧ card = { old with childIds := old.childIds ++ [childId] }) := by
  rw [addChild_cards] at found
  split at found
  · next same =>
      subst same
      obtain ⟨old, shown, rfl⟩ := Option.map_eq_some_iff.mp found
      refine ⟨old, shown, ?_⟩
      split
      · exact .inl rfl
      · next unlisted => exact .inr ⟨rfl, unlisted, rfl⟩
  · exact ⟨card, found, .inl rfl⟩

@[simp] theorem putAll_nil : b.putAll [] = b := rfl

@[simp] theorem putAll_cons {job : Job}
    : b.putAll (job :: jobs) = (b.put job.id job.freshCard).putAll jobs := rfl

@[simp] theorem putAll_next : (b.putAll jobs).next = b.next := by
  induction jobs generalizing b with
  | nil => rfl
  | cons job rest ih => rw [putAll_cons, ih, put_next]

@[simp] theorem putAll_nextFlows : (b.putAll jobs).nextFlows = b.nextFlows := by
  induction jobs generalizing b with
  | nil => rfl
  | cons job rest ih => rw [putAll_cons, ih, put_nextFlows]

/-- Other cards are untouched, by induction on the admitted jobs. -/
theorem putAll_cards_of_notMem (fresh : id ∉ jobs.map Job.id)
    : (b.putAll jobs).cards id = b.cards id := by
  induction jobs generalizing b with
  | nil => rfl
  | cons job rest ih =>
      simp only [List.map_cons, List.mem_cons, not_or] at fresh
      rw [putAll_cons, ih fresh.2, put_cards_ne fresh.1]

/-- The card of an admitted id is that of an admitted job, by induction on the jobs. -/
theorem putAll_cards_of_mem (member : id ∈ jobs.map Job.id)
    : ∃ job ∈ jobs, job.id = id ∧ (b.putAll jobs).cards id = some job.freshCard := by
  induction jobs generalizing b with
  | nil => simp at member
  | cons job rest ih =>
      by_cases later : id ∈ rest.map Job.id
      · obtain ⟨found, inRest, sameId, shown⟩ := ih (b := b.put job.id job.freshCard) later
        exact ⟨found, List.mem_cons_of_mem job inRest, sameId, shown⟩
      · have here : id = job.id := by
          simpa [later] using member
        refine ⟨job, List.mem_cons_self, here.symm, ?_⟩
        rw [putAll_cons, putAll_cards_of_notMem later, here, put_cards_self]

/-- With distinct ids every admitted job shows its own card. -/
theorem putAll_cards_of_nodup {job : Job} (distinct : (jobs.map Job.id).Nodup)
    (member : job ∈ jobs)
    : (b.putAll jobs).cards job.id = some job.freshCard := by
  obtain ⟨found, inJobs, sameId, shown⟩ :=
    putAll_cards_of_mem (b := b) (List.mem_map_of_mem member)
  rw [shown, List.inj_on_of_nodup_map distinct inJobs member sameId]

end Board

namespace InMemoryJobQueueState

variable {s : InMemoryJobQueueState} {job owner candidate existing : Job} {now : DateTime}

-----------------------------------------------------------------------------------------
-- Admission
-----------------------------------------------------------------------------------------

/-- A drawn sequence number does not show on the card. -/
theorem assignWaitingOrder_eq (s : InMemoryJobQueueState) (job : Job)
    : ∃ enqueuedSeq,
        (s.assignWaitingOrder job).2 = { job with enqueuedSeq }
        ∧ (s.assignWaitingOrder job).1.tables = s.tables := by
  unfold assignWaitingOrder
  split
  · exact ⟨_, rfl, rfl⟩
  · exact ⟨job.enqueuedSeq, rfl, rfl⟩

/-- After its release is forgotten, a job's card is fresh. -/
theorem card_forget (s : InMemoryJobQueueState) (job : Job)
    : job.card (s.forgetReleasedDeduplicationOwnerLocked job).releasedDeduplicationOwners
      = job.freshCard := by
  unfold forgetReleasedDeduplicationOwnerLocked
  cases key : jobDeduplicationId job with
  | none => simp [Job.freshCard, Job.card, key]
  | some deduplicationId =>
      simp [Job.freshCard, Job.card, key, deduplicationOwnerReleased, Option.filter]

/-- A forgotten release followed by a write of the same id only puts that card. -/
theorem board_forget_setJob (s : InMemoryJobQueueState) {stored : Job}
    (sameId : stored.id = job.id) (sameKey : jobDeduplicationId stored = jobDeduplicationId job)
    : ((s.forgetReleasedDeduplicationOwnerLocked job).setJob stored).board
      = s.board.put job.id stored.freshCard := by
  have fresh
      : stored.card (s.forgetReleasedDeduplicationOwnerLocked job).releasedDeduplicationOwners
        = stored.freshCard := by
    have own := card_forget s stored
    unfold forgetReleasedDeduplicationOwnerLocked at own ⊢
    rw [sameKey, sameId] at own
    exact own
  rw [board_setJob, fresh, sameId]
  ext1
  · funext other
    rw [Board.put_cards, Board.put_cards]
    split
    · rfl
    · next different =>
        unfold forgetReleasedDeduplicationOwnerLocked
        split
        · rfl
        · simp only [board]
          cases found : s.jobs.get other with
          | none => rfl
          | some retained =>
              simp only [Option.map_some]
              rw [card_erase_of_ne]
              rw [JobMap.get_id found]
              exact different
  · unfold forgetReleasedDeduplicationOwnerLocked
    split <;> rfl
  · unfold forgetReleasedDeduplicationOwnerLocked
    split <;> rfl

/-- Admission puts the fresh card, and the admitted record only draws a sequence number. -/
theorem board_insertCreated (s : InMemoryJobQueueState) (job : Job) (now : DateTime)
    : (s.insertCreated job now).1.board = s.board.put job.id job.freshCard
      ∧ ∃ enqueuedSeq, (s.insertCreated job now).2 = { job with enqueuedSeq } := by
  unfold insertCreated
  obtain ⟨enqueuedSeq, drawn, tables⟩ :=
    assignWaitingOrder_eq (s.forgetReleasedDeduplicationOwnerLocked job) job
  refine ⟨?_, enqueuedSeq, drawn⟩
  simp only
  rw [board_of_tables (emitJobCreatedEventsLocked_tables _ _ _), drawn]
  rw [board_setJob_of_tables tables]
  exact board_forget_setJob s rfl rfl

/-- The admission that draws the sequence first does the same to the board. -/
theorem board_insertSequenced (s : InMemoryJobQueueState) (job : Job) (now : DateTime)
    : (s.insertSequenced job now).1.board = s.board.put job.id job.freshCard
      ∧ ∃ enqueuedSeq, (s.insertSequenced job now).2 = { job with enqueuedSeq } := by
  unfold insertSequenced
  obtain ⟨enqueuedSeq, drawn, tables⟩ := assignWaitingOrder_eq s job
  refine ⟨?_, enqueuedSeq, drawn⟩
  simp only
  rw [board_of_tables (emitJobCreatedEventsLocked_tables _ _ _), drawn,
    board_forget_setJob _ rfl rfl, board_of_tables tables]
  rfl

/-- The children of a kept flow are admitted one after the other, by induction. -/
theorem board_insertAllCreated (s : InMemoryJobQueueState) (now : DateTime)
    (children : List Job)
    : (s.insertAllCreated now children).1.board = s.board.putAll children := by
  induction children generalizing s with
  | nil => rfl
  | cons child rest ih =>
      simp only [insertAllCreated, Board.putAll_cons]
      rw [ih, (board_insertCreated s child now).1]

-----------------------------------------------------------------------------------------
-- Deduplication TTLs and candidates
-----------------------------------------------------------------------------------------

/-- A changed expiry shows on the board. -/
theorem board_setJob_expire {id : JobId} (found : s.jobs.get id = some job)
    (deduplicationExpiresAt : Option DateTime)
    : (s.setJob { job with deduplicationExpiresAt }).board
      = s.board.expire id deduplicationExpiresAt := by
  obtain rfl : job.id = id := JobMap.get_id found
  rw [board_setJob]
  ext1
  · funext other
    simp only [Board.put_cards, Board.expire_cards]
    split
    · rw [board_cards_of_get found]
      rfl
    · rfl
  · rfl
  · rfl

theorem board_clearOwnerExpiration (s : InMemoryJobQueueState) (ownerId : JobId)
    : (s.clearOwnerExpiration ownerId).board = s.board.expire ownerId none := by
  unfold clearOwnerExpiration
  cases found : s.jobs.get ownerId with
  | none =>
      have shown := board_cards_none.mpr found
      simp only
      ext1
      · funext other
        rw [Board.expire_cards]
        split
        · next same => rw [same, shown]; rfl
        · rfl
      · rfl
      · rfl
  | some owner => exact board_setJob_expire found none

/-- Keeping a candidate replaces what was kept and ends the owner's TTL. -/
theorem board_storeDeduplicatedNextLocked (s : InMemoryJobQueueState)
    (candidate existing : Job)
    : s.storeDeduplicatedNextLocked candidate existing = (s, false)
      ∨ ∃ deduplicationId,
          deduplicationStoresNextIfActive candidate existing = true
          ∧ jobDeduplicationId candidate = some deduplicationId
          ∧ (s.storeDeduplicatedNextLocked candidate existing).2 = true
          ∧ (s.storeDeduplicatedNextLocked candidate existing).1.board
            = (s.board.keep deduplicationId (some candidate) none).expire existing.id none := by
  unfold storeDeduplicatedNextLocked
  split
  · exact .inl rfl
  · next stores =>
      cases key : jobDeduplicationId candidate with
      | none => exact .inl rfl
      | some deduplicationId =>
          refine .inr ⟨deduplicationId, by simpa using stores, rfl, rfl, ?_⟩
          simp only
          rw [board_clearOwnerExpiration]
          congr 1
          ext1
          · rfl
          · funext other
            by_cases same : other = deduplicationId <;>
              simp [board, Board.keep, same]
          · funext other
            by_cases same : other = deduplicationId <;>
              simp [board, Board.keep, same]

/-- Keeping a flow candidate likewise. -/
theorem board_storeDeduplicatedNextFlowLocked (s : InMemoryJobQueueState)
    (candidate : JobFlow) (existing : Job)
    : s.storeDeduplicatedNextFlowLocked candidate existing = (s, false)
      ∨ ∃ deduplicationId,
          deduplicationStoresNextFlowIfActive candidate existing = true
          ∧ jobDeduplicationId candidate.parent = some deduplicationId
          ∧ (s.storeDeduplicatedNextFlowLocked candidate existing).2 = true
          ∧ (s.storeDeduplicatedNextFlowLocked candidate existing).1.board
            = (s.board.keep deduplicationId none (some candidate)).expire existing.id none := by
  unfold storeDeduplicatedNextFlowLocked
  split
  · exact .inl rfl
  · next stores =>
      cases key : jobDeduplicationId candidate.parent with
      | none => exact .inl rfl
      | some deduplicationId =>
          refine .inr ⟨deduplicationId, by simpa using stores, rfl, rfl, ?_⟩
          simp only
          rw [board_clearOwnerExpiration]
          congr 1
          ext1
          · rfl
          · funext other
            by_cases same : other = deduplicationId <;>
              simp [board, Board.keep, same]
          · funext other
            by_cases same : other = deduplicationId <;>
              simp [board, Board.keep, same]

/-- Extending a TTL changes the owner's expiry or nothing. -/
theorem board_extendDeduplicationExpirationLocked (s : InMemoryJobQueueState)
    (candidate : Job) (existingId : JobId) (now : DateTime)
    : s.extendDeduplicationExpirationLocked candidate existingId now = (s, false)
      ∨ deduplicationExtendsTtl candidate = true
        ∧ (s.extendDeduplicationExpirationLocked candidate existingId now).1.board
          = s.board.expire existingId (deduplicationExpiration candidate.options now) := by
  unfold extendDeduplicationExpirationLocked
  split
  · exact .inl rfl
  · next extends_ =>
      cases found : s.jobs.get existingId with
      | none => exact .inl rfl
      | some existing =>
          exact .inr ⟨by simpa using extends_, board_setJob_expire found _⟩

-----------------------------------------------------------------------------------------
-- Materialization of what was kept
-----------------------------------------------------------------------------------------

/-- The keep-last job that the end of `owner` admits, if there is one that may be let in. -/
def nextJobOf (s : InMemoryJobQueueState) (owner : Job) (now : DateTime) : Option Job := do
  let deduplicationId ← jobDeduplicationId owner
  let candidate ← s.deduplicationNext.lookup deduplicationId
  let repeatNextCount ← repeatKeepLastNextCount owner candidate
  let next := nextKeepLastJob owner candidate repeatNextCount now
  if s.jobs.containsKey next.id then none else some next

/-- The keep-last flow that the end of `owner` admits, if there is one that may be let in. -/
def nextFlowOf (s : InMemoryJobQueueState) (owner : Job) (now : DateTime)
    : Option JobFlow := do
  let deduplicationId ← jobDeduplicationId owner
  let flow ← s.deduplicationNextFlows.lookup deduplicationId
  if s.jobs.containsKey flow.parent.id
      || flow.children.any (fun child => s.jobs.containsKey child.id) then
    none
  else
    some (prepareDeduplicatedNextFlow flow now)

/-- The jobs that the end of `owner` admits. -/
def keptJobs (s : InMemoryJobQueueState) (owner : Job) (now : DateTime) : List Job :=
  match s.nextJobOf owner now with
  | some next => [next]
  | none =>
      match s.nextFlowOf owner now with
      | some flow => flow.parent :: flow.children
      | none => []

/-- The cards after the end of `owner` admitted what was kept. -/
def keptBoard (s : InMemoryJobQueueState) (owner : Job) (now : DateTime) : Board :=
  match s.nextJobOf owner now with
  | some next => (s.board.adopt next).put next.id next.freshCard
  | none =>
      match s.nextFlowOf owner now with
      | some flow => s.board.putAll (flow.parent :: flow.children)
      | none => s.board

theorem board_pushChildId (s : InMemoryJobQueueState) (parentId childId : JobId)
    : (s.pushChildId parentId childId).board = s.board.addChild parentId childId := by
  unfold pushChildId
  cases found : s.jobs.get parentId with
  | none =>
      have shown := board_cards_none.mpr found
      simp only
      ext1
      · funext other
        rw [Board.addChild_cards]
        split
        · next same => rw [same, shown]; rfl
        · rfl
      · rfl
      · rfl
  | some parent =>
      have shown := board_cards_of_get found
      have same : parent.id = parentId := JobMap.get_id found
      simp only
      split
      · next listed =>
          ext1
          · funext other
            rw [Board.addChild_cards]
            split
            · next equal =>
                rw [equal, shown]
                simp [Job.card, listed]
            · rfl
          · rfl
          · rfl
      · next unlisted =>
          rw [board_setJob]
          ext1
          · funext other
            simp only [Board.put_cards, Board.addChild_cards, same]
            split
            · rw [shown]
              simp [Job.card, unlisted, jobDeduplicationId, failurePolicy,
                childFailureReleasesDependency, same]
            · rfl
          · rfl
          · rfl

/-- The keep-last job helper: without a deduplication id nothing happens, otherwise the
candidate is dropped and, when it may be, admitted.
-/
theorem board_enqueueDeduplicatedNextLocked (s : InMemoryJobQueueState) (owner : Job)
    (now : DateTime)
    : (s.enqueueDeduplicatedNextLocked owner now).2.isSome = (s.nextJobOf owner now).isSome
      ∧ (s.enqueueDeduplicatedNextLocked owner now).1.board
        = match jobDeduplicationId owner with
          | none => s.board
          | some deduplicationId =>
              let dropped :=
                s.board.keep deduplicationId none (s.board.nextFlows deduplicationId)
              match s.nextJobOf owner now with
              | none => dropped
              | some next => (dropped.adopt next).put next.id next.freshCard := by
  unfold enqueueDeduplicatedNextLocked nextJobOf
  cases key : jobDeduplicationId owner with
  | none => exact ⟨rfl, rfl⟩
  | some deduplicationId =>
      simp only [Option.bind_eq_bind, Option.bind_some]
      have erased
          : ({ s with deduplicationNext := s.deduplicationNext.erase deduplicationId }
              : InMemoryJobQueueState).board
            = s.board.keep deduplicationId none (s.board.nextFlows deduplicationId) := by
        ext1
        · rfl
        · funext other
          by_cases same : other = deduplicationId <;>
            simp [board, Board.keep, same]
        · simp [board, Board.keep]
      cases kept : s.deduplicationNext.lookup deduplicationId with
      | none =>
          refine ⟨rfl, ?_⟩
          simp only [Option.bind_none]
          ext1
          · rfl
          · funext other
            by_cases same : other = deduplicationId <;>
              simp [board, Board.keep, same, kept]
          · simp [Board.keep]
      | some candidate =>
          simp only [Option.bind_some]
          cases repeatKeepLastNextCount owner candidate with
          | none => exact ⟨rfl, erased⟩
          | some repeatNextCount =>
              simp only [Option.bind_some]
              generalize nextKeepLastJob owner candidate repeatNextCount now = next
              split
              · exact ⟨rfl, erased⟩
              · refine ⟨rfl, ?_⟩
                simp only
                rw [(board_insertCreated _ next now).1]
                congr 1
                rw [← erased]
                unfold Board.adopt
                cases next.parentId with
                | none => rfl
                | some parentId => exact board_pushChildId _ _ _

/-- The keep-last flow helper likewise. -/
theorem board_enqueueDeduplicatedNextFlowLocked (s : InMemoryJobQueueState) (owner : Job)
    (now : DateTime)
    : (s.enqueueDeduplicatedNextFlowLocked owner now).2.isSome
        = (s.nextFlowOf owner now).isSome
      ∧ (s.enqueueDeduplicatedNextFlowLocked owner now).1.board
        = match jobDeduplicationId owner with
          | none => s.board
          | some deduplicationId =>
              let dropped := s.board.keep deduplicationId (s.board.next deduplicationId) none
              match s.nextFlowOf owner now with
              | none => dropped
              | some flow => dropped.putAll (flow.parent :: flow.children) := by
  unfold enqueueDeduplicatedNextFlowLocked nextFlowOf
  cases key : jobDeduplicationId owner with
  | none => exact ⟨rfl, rfl⟩
  | some deduplicationId =>
      simp only [Option.bind_eq_bind, Option.bind_some]
      have erased
          : ({ s with
                deduplicationNextFlows := s.deduplicationNextFlows.erase deduplicationId }
              : InMemoryJobQueueState).board
            = s.board.keep deduplicationId (s.board.next deduplicationId) none := by
        ext1
        · rfl
        · simp [board, Board.keep]
        · funext other
          by_cases same : other = deduplicationId <;>
            simp [board, Board.keep, same]
      cases kept : s.deduplicationNextFlows.lookup deduplicationId with
      | none =>
          refine ⟨rfl, ?_⟩
          simp only [Option.bind_none]
          ext1
          · rfl
          · simp [Board.keep]
          · funext other
            by_cases same : other = deduplicationId <;>
              simp [board, Board.keep, same, kept]
      | some flow =>
          simp only [Option.bind_some]
          split
          · exact ⟨rfl, erased⟩
          · refine ⟨rfl, ?_⟩
            simp only
            rw [board_insertAllCreated, (board_insertCreated _ _ now).1, erased,
              Board.putAll_cons]

end InMemoryJobQueueState

end Lane
