import Lane.Board.Changes

/-! Uniqueness of a key that jobs hold exclusively. The repeat key of unfinished jobs and the
deduplication id of owners follow the same rules, so one proof serves both.
-/

namespace Lane

open KeyTable

-----------------------------------------------------------------------------------------
-- Rules of an exclusive key
-----------------------------------------------------------------------------------------

/-- The card has the keys of the old one, and it has finished if the old one had. -/
structure Card.Continues (card old : Card) : Prop where
  repeatKey : card.repeatKey = old.repeatKey
  ownerKey : card.ownerKey = old.ownerKey
  deduplicationExpiresAt : card.deduplicationExpiresAt = old.deduplicationExpiresAt
  terminal : old.phase.isTerminal = true → card.phase.isTerminal = true

theorem Card.SameKeys.continues {card old : Card} (same : card.SameKeys old)
    (stays : old.phase.isTerminal = true → card.phase.isTerminal = true)
    : card.Continues old :=
  ⟨same.repeatKey, same.ownerKey, same.deduplicationExpiresAt, stays⟩

theorem Card.Grown.continues {old card : Card} (grown : old.Grown card) : card.Continues old := by
  obtain ⟨more, rfl⟩ := grown
  exact ⟨rfl, rfl, rfl, fun terminal => terminal⟩

/-- No two new children of one submission both require to be kept for the end of the same
owner. A submitted parent would insert all but the last of them next to the owner.
-/
def Board.Unsuperseded (b : Board) (now : DateTime) (children : List Job) : Prop :=
  ∀ left ∈ children,
    ∀ right ∈ children,
      ∀ key,
        b.cards left.id = none
        → b.cards right.id = none
        → b.RequiresNext now key left
        → b.RequiresNext now key right
        → left.id = right.id

/-- A submitted parent has no two new children that wait for the end of one owner. -/
def ChildrenApart (now : DateTime) (b : Board) (submittedParent : Bool) (children : List Job)
    : Prop :=
  submittedParent = true → b.Unsuperseded now children

/-- A superseded child shares its deduplication id with another new child. -/
theorem not_supersedes {b : Board} {now : DateTime} {submitted : Bool} {parentId : JobId}
    {children : List Job} {existingIds : List JobId} {p : FlowPlan} {child : Job} {key : String}
    (allowed : ChildrenApart now b submitted children)
    (gathers : b.Gathers now submitted parentId children existingIds p)
    (inserted : child ∈ p.inserted)
    : ¬ p.Supersedes b now submitted key child := by
  rintro ⟨isSubmitted, requires, kept⟩
  obtain ⟨other, stored⟩ := Option.isSome_iff_exists.mp kept
  obtain ⟨submittedChild, absent, unkept⟩ := gathers.inserted child inserted
  obtain ⟨otherSubmitted, otherAbsent, otherRequires⟩ := gathers.sifts.keptChild stored
  have same : child.id = other.id :=
    allowed isSubmitted child submittedChild other otherSubmitted key absent otherAbsent requires
      otherRequires
  have equal : child = other :=
    List.inj_on_of_nodup_map gathers.records.distinct submittedChild otherSubmitted same
  exact unkept key (equal ▸ stored)

/-- What the uniqueness of a key rests on: cards that go on hold nothing new, and whatever is
submitted, attached or retried was checked against the holders of its key. `apart` is what the
submission of children must meet.
-/
structure KeyRules (now : DateTime) (key : Card → Option String)
    (apart : Board → Bool → List Job → Prop) : Prop where
  continued
    : ∀ {card old k}, Card.Continues card old → key card = some k → key old = some k
  disowned : ∀ {card k}, key { card with ownerKey := none } = some k → key card = some k
  admits
    : ∀ {b replaced job k},
        Board.Admits b now replaced job
        → key job.freshCard = some k
        → (∀ id, ¬ Holds key b.cards k id) ∨ ∃ id, replaced = some id ∧ Holds key b.cards k id
  coalesces
    : ∀ {b d ownerId keepsJob keepsFlow after k id},
        Board.Owns b now d ownerId
        → Board.Coalesces b d ownerId keepsJob keepsFlow after
        → Holds key after.cards k id
        → Holds key b.cards k id
  sifts
    : ∀ {b children kept after k id},
        Board.Sifts b now children kept after
        → Holds key after.cards k id
        → Holds key b.cards k id
  unheld
    : ∀ {b submitted parentId children existingIds p child k},
        apart b submitted children
        → Board.Gathers b now submitted parentId children existingIds p
        → child ∈ p.inserted
        → key child.freshCard = some k
        → ∀ id, ¬ Holds key p.sifted.cards k id
  once
    : ∀ {b submitted parentId children existingIds p left right k},
        apart b submitted children
        → Board.Gathers b now submitted parentId children existingIds p
        → left ∈ p.inserted
        → right ∈ p.inserted
        → key left.freshCard = some k
        → key right.freshCard = some k
        → left.id = right.id
  created
    : ∀ {b parent k} {inserted : List Job},
        (∀ k,
          activeDeduplicationId parent now = some k
          → (∀ id, ¬ Board.Owns b now k id)
            ∧ ∀ child ∈ inserted, activeDeduplicationId child now ≠ some k)
        → (∀ k,
          parent.repeatKey = some k
          → (∀ id, ¬ Board.Carries b k id) ∧ ∀ child ∈ inserted, child.repeatKey ≠ some k)
        → key parent.freshCard = some k
        → (∀ id, ¬ Holds key b.cards k id) ∧ ∀ child ∈ inserted, key child.freshCard ≠ some k
  retried
    : ∀ {s job enqueuedSeq k},
        InMemoryJobQueueState.RetryChecks s job now
        → key (InMemoryJobQueueState.retriedJob job enqueuedSeq now).freshCard = some k
        → ∀ id, id ≠ job.id → ¬ Holds key s.board.cards k id

variable {now : DateTime} {key : Card → Option String}
  {apart : Board → Bool → List Job → Prop}

namespace Board

variable {b after : Board} {k : String} {id parentId : JobId} {job : Job} {replaced : Option JobId}

/-- A table whose cards all continue older ones holds no new key. -/
theorem holds_of_continued (rules : KeyRules now key apart)
    (before
      : ∀ card, after.cards id = some card → ∃ old, b.cards id = some old ∧ card.Continues old)
    (holds : Holds key after.cards k id)
    : Holds key b.cards k id := by
  obtain ⟨card, found, held⟩ := holds
  obtain ⟨old, shown, continued⟩ := before card found
  exact ⟨old, shown, rules.continued continued held⟩

theorem Settles.holds (rules : KeyRules now key apart) (settles : b.Settles after)
    (holds : Holds key after.cards k id)
    : Holds key b.cards k id := by
  refine holds_of_continued rules ?_ holds
  intro card found
  obtain ⟨old, shown, same, stays⟩ := settles.card found
  exact ⟨old, shown, same.continues (fun terminal => by rw [stays terminal, terminal])⟩

theorem unique_settles (rules : KeyRules now key apart) (unique : Unique key b.cards)
    (settles : b.Settles after)
    : Unique key after.cards :=
  unique.of_holds_subset (fun _ _ => settles.holds rules)

theorem unique_enter (rules : KeyRules now key apart) (unique : Unique key b.cards)
    (admits : b.Admits now replaced job)
    : Unique key (b.enter replaced job).cards := by
  have before : Unique key (b.without {id | replaced = some id}).cards :=
    unique_settles rules unique (.without b _)
  refine before.addOne job.id ?_ ?_
  · rintro k id different ⟨card, found, held⟩
    unfold enter at found
    rw [put_cards_ne different] at found
    exact ⟨card, found, held⟩
  · rintro k id ⟨card, found, held⟩ _ ⟨other, shown, otherHeld⟩
    unfold enter at found
    rw [put_cards_self] at found
    obtain rfl := Option.some.inj found
    obtain ⟨kept, stored⟩ := without_cards_some shown
    have holds : Holds key b.cards k id := ⟨other, stored, otherHeld⟩
    rcases rules.admits admits held with unheld | ⟨owner, isReplaced, owns⟩
    · exact unheld id holds
    · exact kept (unique.eq owns holds ▸ isReplaced)

variable {submitted : Bool} {children : List Job} {existingIds : List JobId} {p : FlowPlan}
  {parentCard old : Card}

/-- Records attached to the parent go on with their keys. -/
theorem holds_filled (rules : KeyRules now key apart)
    (gathers : b.Gathers now submitted parentId children existingIds p)
    (different : id ≠ parentId) (apart : id ∉ p.inserted.map Job.id)
    (holds : Holds key (p.filled parentId parentCard).cards k id)
    : Holds key p.sifted.cards k id := by
  refine holds_of_continued rules ?_ holds
  intro card found
  rcases gathers.card_before found with
    ⟨same, _⟩ | ⟨old, shown, _, ⟨_, rfl⟩ | ⟨_, rfl⟩⟩ | ⟨child, member, same, _⟩
  · exact absurd same different
  · exact ⟨card, shown, rfl, rfl, rfl, fun terminal => terminal⟩
  · exact ⟨old, shown, rfl, rfl, rfl, fun terminal => terminal⟩
  · exact absurd (same ▸ List.mem_map_of_mem member) apart

/-- An inserted child holds what its record says. -/
theorem inserted_of_holds (gathers : b.Gathers now submitted parentId children existingIds p)
    (member : id ∈ p.inserted.map Job.id)
    (holds : Holds key (p.filled parentId parentCard).cards k id)
    : ∃ child ∈ p.inserted, child.id = id ∧ key child.freshCard = some k := by
  obtain ⟨child, inserted, rfl⟩ := List.mem_map.mp member
  obtain ⟨card, found, held⟩ := holds
  rw [gathers.inserted_card inserted] at found
  obtain rfl := Option.some.inj found
  exact ⟨child, inserted, rfl, held⟩

/-- Children that join a retained parent were checked against all holders. -/
theorem unique_joined (rules : KeyRules now key apart) (unique : Unique key b.cards)
    (gathers : b.Gathers now submitted parentId children existingIds p)
    (allowed : apart b submitted children) (retimed : p.sifted.cards parentId = some old)
    (continued : parentCard.Continues old)
    : Unique key (p.filled parentId parentCard).cards := by
  have sifted : Unique key p.sifted.cards :=
    unique.of_holds_subset (fun _ _ => rules.sifts gathers.sifts)
  have within {k : String} {id : JobId} (apart : id ∉ p.inserted.map Job.id)
      (holds : Holds key (p.filled parentId parentCard).cards k id)
      : Holds key p.sifted.cards k id := by
    by_cases isParent : id = parentId
    · subst isParent
      refine holds_of_continued rules ?_ holds
      intro card found
      rw [gathers.parent_card] at found
      obtain rfl := Option.some.inj found
      exact ⟨old, retimed, continued⟩
    · exact holds_filled rules gathers isParent apart holds
  refine sifted.add {id | id ∈ p.inserted.map Job.id} (fun k id => within) ?_ ?_
  · intro k i j member holds _
    obtain ⟨child, inserted, _, held⟩ := inserted_of_holds gathers member holds
    exact rules.unheld allowed gathers inserted held j
  · intro k i j member otherMember holds otherHolds
    obtain ⟨left, leftIn, rfl, leftHeld⟩ := inserted_of_holds gathers member holds
    obtain ⟨right, rightIn, rfl, rightHeld⟩ := inserted_of_holds gathers otherMember otherHolds
    exact rules.once allowed gathers leftIn rightIn leftHeld rightHeld

/-- A created parent was checked against all holders and against its own children. -/
theorem unique_created {parent : Job} (rules : KeyRules now key apart)
    (unique : Unique key b.cards)
    (gathers : b.Gathers now submitted parent.id children existingIds p)
    (allowed : apart b submitted children)
    (unheld
      : ∀ k,
          key parentCard = some k
          → (∀ id, ¬ Holds key b.cards k id) ∧ ∀ child ∈ p.inserted, key child.freshCard ≠ some k)
    : Unique key (p.filled parent.id parentCard).cards := by
  have sifted : Unique key p.sifted.cards :=
    unique.of_holds_subset (fun _ _ => rules.sifts gathers.sifts)
  have parentHolds {k : String} (holds : Holds key (p.filled parent.id parentCard).cards k parent.id)
      : key parentCard = some k := by
    obtain ⟨card, found, held⟩ := holds
    rw [gathers.parent_card] at found
    obtain rfl := Option.some.inj found
    exact held
  refine sifted.add (insert parent.id {id | id ∈ p.inserted.map Job.id}) ?_ ?_ ?_
  · intro k id new holds
    rw [Set.mem_insert_iff, not_or] at new
    exact holds_filled rules gathers new.1 new.2 holds
  · rintro k i j (rfl | member) holds _ otherHolds
    · exact (unheld k (parentHolds holds)).1 j (rules.sifts gathers.sifts otherHolds)
    · obtain ⟨child, inserted, _, held⟩ := inserted_of_holds gathers member holds
      exact rules.unheld allowed gathers inserted held j otherHolds
  · rintro k i j (rfl | member) (rfl | otherMember) holds otherHolds
    · rfl
    · obtain ⟨child, inserted, _, held⟩ := inserted_of_holds gathers otherMember otherHolds
      exact absurd held ((unheld k (parentHolds holds)).2 child inserted)
    · obtain ⟨child, inserted, _, held⟩ := inserted_of_holds gathers member holds
      exact absurd held ((unheld k (parentHolds otherHolds)).2 child inserted)
    · obtain ⟨left, leftIn, rfl, leftHeld⟩ := inserted_of_holds gathers member holds
      obtain ⟨right, rightIn, rfl, rightHeld⟩ := inserted_of_holds gathers otherMember otherHolds
      exact rules.once allowed gathers leftIn rightIn leftHeld rightHeld

end Board

namespace InMemoryJobQueueState

variable {cron : Cron} {find : Find} {queue : QueueName} {s : InMemoryJobQueueState} {op : Op}
  {b after settled : Board} {k : String} {id : JobId} {job owner : Job} {owners admitted : List Job}

-----------------------------------------------------------------------------------------
-- What enters at the end of an owner
-----------------------------------------------------------------------------------------

/-- The job still holds the key once the operation has finished its owners: either it is not
one of them, or its finished record stays and holds the key.
-/
def RetainsKey (s : InMemoryJobQueueState) (key : Card → Option String) (op : Op) (k : String)
    (id : JobId)
    : Prop :=
  (¬ s.Ends op id ∧ Holds key s.board.cards k id)
    ∨ ∃ now job card,
        s.Finishes op now job false
        ∧ job.id = id
        ∧ s.board.cards id = some card
        ∧ key (card.moved .completed) = some k

/-- What the operation may admit at the end of an owner holds no key that a job still holds
then, and no key that something else it may admit holds as well.
-/
structure EntersFreely (cron : Cron) (s : InMemoryJobQueueState) (key : Card → Option String)
    (op : Op) (now : DateTime)
    : Prop where
  candidate
    : ∀ job k,
        s.MayEnter op now job → key job.freshCard = some k → ∀ id, ¬ s.RetainsKey key op k id
  candidates
    : ∀ left right k,
        s.MayEnter op now left
        → s.MayEnter op now right
        → key left.freshCard = some k
        → key right.freshCard = some k
        → left.id = right.id
  successor
    : ∀ next k,
        s.MayRepeat cron op now next
        → key next.freshCard = some k
        → ∀ id, ¬ s.RetainsKey key op k id

/-- The holders at a stage: those that still hold their key, and admitted jobs. -/
def HoldsAtStage (s : InMemoryJobQueueState) (key : Card → Option String) (op : Op)
    (now : DateTime) (b : Board)
    : Prop :=
  Unique key b.cards
    ∧ ∀ k id,
        Holds key b.cards k id
        → s.RetainsKey key op k id
          ∨ ∃ job, s.MayEnter op now job ∧ job.id = id ∧ key job.freshCard = some k

theorem retainsKey_of_holds {removes : Job → Bool} (rules : KeyRules now key apart)
    (time : op.time = some now)
    (finishes : ∀ owner flag, s.Finishes op now owner flag ↔ owner ∈ owners ∧ flag = removes owner)
    (retires : s.board.Retires owners removes settled) (holds : Holds key settled.cards k id)
    : s.RetainsKey key op k id := by
  by_cases ends : s.Ends op id
  · obtain ⟨time', job, flag, finished, rfl⟩ := ends
    obtain rfl : now = time' := Option.some.inj (time.symm.trans finished.time)
    obtain ⟨member, rfl⟩ := (finishes job flag).mp finished
    obtain ⟨card, found, held⟩ := holds
    cases removed : removes job with
    | true =>
        rw [retires.gone job member removed] at found
        cases found
    | false =>
        obtain ⟨old, shown, same, _⟩ := retires.settles.card found
        refine .inr ⟨now, job, old, removed ▸ finished, rfl, shown, ?_⟩
        refine rules.continued ⟨same.repeatKey, same.ownerKey, same.deduplicationExpiresAt, ?_⟩ held
        intro _
        by_contra alive
        exact retires.finished job member ⟨card, found, (Bool.not_eq_true _).mp alive⟩
  · exact .inl ⟨ends, retires.settles.holds rules holds⟩

theorem HoldsAtStage.settles (rules : KeyRules now key apart)
    (stage : s.HoldsAtStage key op now b) (settles : b.Settles after)
    : s.HoldsAtStage key op now after :=
  ⟨Board.unique_settles rules stage.1 settles,
    fun k id holds => stage.2 k id (settles.holds rules holds)⟩

/-- The end of an owner keeps a key unique when what enters holds it freely. -/
theorem HoldsAtStage.admits (rules : KeyRules now key apart)
    (free : s.EntersFreely cron key op now) (stage : s.HoldsAtStage key op now b)
    (ends : b.OwnerEnds owner now admitted after)
    (enters : ∀ job ∈ admitted, s.MayEnter op now job)
    : s.HoldsAtStage key op now after := by
  have before {k : String} {id : JobId} (holds : Holds key after.cards k id)
      : (id ∉ admitted.map Job.id ∧ Holds key b.cards k id)
        ∨ ∃ job ∈ admitted, job.id = id ∧ key job.freshCard = some k := by
    obtain ⟨card, found, held⟩ := holds
    rcases ends.card_before found with ⟨old, shown, origin⟩ | ⟨job, member, same, rfl, _⟩
    · have continued : card.Continues old := by
        rcases origin with rfl | ⟨_, _, _, _, rfl⟩ <;> exact ⟨rfl, rfl, rfl, fun terminal => terminal⟩
      refine .inl ⟨?_, old, shown, rules.continued continued held⟩
      intro member
      obtain ⟨job, inAdmitted, same⟩ := List.mem_map.mp member
      rw [← same, ends.absent job inAdmitted] at shown
      cases shown
    · exact .inr ⟨job, member, same, held⟩
  have entered {k : String} {id : JobId} (member : id ∈ admitted.map Job.id)
      (holds : Holds key after.cards k id)
      : ∃ job ∈ admitted, job.id = id ∧ key job.freshCard = some k :=
    (before holds).resolve_left (fun old => old.1 member)
  refine ⟨stage.1.add {id | id ∈ admitted.map Job.id} ?_ ?_ ?_, ?_⟩
  · intro k id new holds
    rcases before holds with ⟨_, held⟩ | ⟨job, member, rfl, _⟩
    · exact held
    · exact absurd (List.mem_map_of_mem member) new
  · intro k i j member holds other otherHolds
    obtain ⟨job, inAdmitted, rfl, held⟩ := entered member holds
    have mayEnter := enters job inAdmitted
    rcases stage.2 k j otherHolds with retains | ⟨earlier, alsoEnters, rfl, alsoHeld⟩
    · exact free.candidate job k mayEnter held j retains
    · exact other (free.candidates job earlier k mayEnter alsoEnters held alsoHeld ▸ member)
  · intro k i j member otherMember holds otherHolds
    obtain ⟨left, leftIn, rfl, leftHeld⟩ := entered member holds
    obtain ⟨right, rightIn, rfl, rightHeld⟩ := entered otherMember otherHolds
    exact free.candidates left right k (enters left leftIn) (enters right rightIn) leftHeld rightHeld
  · intro k id holds
    rcases before holds with ⟨_, held⟩ | ⟨job, member, same, held⟩
    · exact stage.2 k id held
    · exact .inr ⟨job, enters job member, same, held⟩

-----------------------------------------------------------------------------------------
-- One operation
-----------------------------------------------------------------------------------------

theorem Submits.unique (rules : KeyRules now key apart) (submits : s.Submits job now after)
    (unique : Unique key s.board.cards)
    : Unique key after.cards := by
  cases submits with
  | answered => exact unique
  | admitted _ _ admits _ => exact Board.unique_enter rules unique admits
  | coalesced _ owns coalesces =>
      exact unique.of_holds_subset (fun _ _ => rules.coalesces owns coalesces)

/-- A key stays unique over a batch, by induction on the submissions. -/
theorem unique_submitsEach {jobs : List Job} {t : InMemoryJobQueueState}
    (rules : KeyRules now key apart) (each : SubmitsEach find now s jobs t)
    (unique : Unique key s.board.cards)
    : Unique key t.board.cards := by
  induction each with
  | nil => exact unique
  | cons submits _ ih => exact ih (submits.unique rules unique)

/-- The operation submits a flow whose parent is neither retained nor deduplicated. -/
def CreatesParent (queue : QueueName) (s : InMemoryJobQueueState) (op : Op) : Prop :=
  ∃ parent children now,
    op = .addFlowAt parent children now
    ∧ let childJobs := flowChildJobs queue (jobOfSpec queue now parent).id children now
      let parentJob := flowParentJob queue parent childJobs now
      s.board.cards parentJob.id = none
      ∧ ∀ key,
          activeDeduplicationId parentJob now = some key → ∀ id, ¬ s.board.Owns now key id

theorem createsParent_of_submits {parent : JobSpec × JobId} {children : List (JobSpec × JobId)}
    {parentJob : Job} {childJobs : List Job}
    (submits
      : (Op.addFlowAt parent children now).flowChildren queue = some (parentJob.id, childJobs, now))
    (parentJob_eq : parentJob = flowParentJob queue parent childJobs now)
    (absent : s.board.cards parentJob.id = none)
    (unowned
      : ∀ key, activeDeduplicationId parentJob now = some key → ∀ id, ¬ s.board.Owns now key id)
    : CreatesParent queue s (.addFlowAt parent children now) := by
  have same := congrArg (fun entry => entry.2.1) (Option.some.inj submits)
  refine ⟨parent, children, now, rfl, ?_⟩
  simp only at same ⊢
  rw [same, ← parentJob_eq]
  exact ⟨absent, unowned⟩

/-- The children that an operation submits are apart, also where it creates their parent. -/
def SubmitsApart (queue : QueueName) (s : InMemoryJobQueueState) (op : Op)
    (apart : Board → Bool → List Job → Prop)
    : Prop :=
  ∀ parentId children now submitted,
    op.flowChildren queue = some (parentId, children, now)
    → (submitted = true → CreatesParent queue s op)
    → apart s.board submitted children

/-- An operation keeps a key unique when what enters holds it freely and the children that it
submits are apart. All other ways in are checked by the queue itself.
-/
theorem unique_step (rules : KeyRules now key apart) (time : ∀ t, op.time = some t → t = now)
    (unique : Unique key s.board.cards) (free : s.EntersFreely cron key op now)
    (allowed : SubmitsApart queue s op apart)
    : Unique key (step cron find queue s op).board.cards := by
  have change := change_step cron find queue s op
  generalize (step cron find queue s op).board = after at change ⊢
  cases change with
  | settled settles => exact Board.unique_settles rules unique settles
  | disowned =>
      refine unique.of_holds_subset ?_
      rintro k id ⟨card, found, held⟩
      rw [Board.disown_cards] at found
      split at found
      · next same =>
          obtain ⟨old, shown, rfl⟩ := Option.map_eq_some_iff.mp found
          exact ⟨old, same ▸ shown, rules.disowned held⟩
      · exact ⟨card, found, held⟩
  | detached _ _ settles =>
      refine unique.of_holds_subset ?_
      intro k id holds
      refine Board.holds_of_continued rules ?_ (settles.holds rules holds)
      intro card found
      obtain ⟨old, shown, rfl⟩ := Board.detached_card_before found
      exact ⟨old, shown, rfl, rfl, rfl, fun terminal => terminal⟩
  | @retried jobId _ job _ enqueuedSeq found checks settles =>
      obtain rfl := time _ rfl
      obtain rfl := JobMap.get_id found
      refine Board.unique_settles rules (unique.addOne job.id ?_ ?_) settles
      · rintro k id different ⟨card, shown, held⟩
        rw [Board.put_cards_ne different] at shown
        exact ⟨card, shown, held⟩
      · rintro k id ⟨card, shown, held⟩ different
        rw [Board.put_cards_self] at shown
        obtain rfl := Option.some.inj shown
        exact rules.retried checks held id different
  | submitted submits =>
      obtain rfl := time _ rfl
      exact submits.unique rules unique
  | submittedEach each =>
      obtain rfl := time _ rfl
      exact unique_submitsEach rules each unique
  | upserted admits =>
      obtain rfl := time _ rfl
      exact Board.unique_enter rules unique admits
  | sifted submits _ sifts =>
      obtain rfl := time _ (flowChildren_time submits)
      exact unique.of_holds_subset (fun _ _ => rules.sifts sifts)
  | coalesced _ _ owns coalesces =>
      obtain rfl := time _ rfl
      exact unique.of_holds_subset (fun _ _ => rules.coalesces owns coalesces)
  | joined submits retimed gathers links alive _ settles =>
      obtain rfl := time _ (flowChildren_time submits)
      refine Board.unique_settles rules ?_ settles
      refine Board.unique_joined rules unique gathers ?_ retimed ?_
      · exact allowed _ _ _ false submits (fun created => by cases created)
      · exact ⟨by rw [links], by rw [links], by rw [links], fun terminal => by rw [alive, terminal]⟩
  | @created parent children submittedAt parentJob childJobs _ _ _ submits parentJob_eq records absent
      gathers unowned uncarried links alive settles =>
      obtain rfl := time submittedAt rfl
      refine Board.unique_settles rules ?_ settles
      have creates := createsParent_of_submits submits parentJob_eq absent
        (fun key active => (unowned key active).1)
      refine Board.unique_created rules unique gathers
        (allowed _ _ _ true submits (fun _ => creates)) ?_
      intro k held
      refine rules.created unowned uncarried (rules.continued ?_ held)
      refine ⟨by rw [links], by rw [links], by rw [links], fun terminal => ?_⟩
      rw [show parentJob.freshCard.phase = _ from records.phase] at terminal
      split at terminal <;> cases terminal
  | @concluded _ _ now settled _ _ removes known finishes retires ends settles =>
      obtain rfl := time _ known
      refine Board.unique_settles rules ?_ settles
      have stage : s.HoldsAtStage key op now settled :=
        ⟨Board.unique_settles rules unique retires.settles,
          fun k id holds => .inl (retainsKey_of_holds rules known finishes retires holds)⟩
      exact (Stage.ownersEnd (s.HoldsAtStage key op now) (.of_retires retires finishes) stage
        (fun owner member => (finishes owner _).mpr ⟨member, rfl⟩)
        (fun stage settles => stage.settles rules settles)
        (fun stage ends enters => stage.admits rules free ends enters) ends).1
  | @continued _ _ _ next _ _ _ _ known finishes repeats generated succeeds retires same kept settles =>
      obtain rfl := time _ known
      refine Board.unique_settles rules ?_ settles
      have settled := Board.unique_settles rules unique (retires.settles.trans kept)
      refine settled.addOne next.id ?_ ?_
      · rintro k id different ⟨card, shown, held⟩
        rw [Board.put_cards_ne different] at shown
        exact ⟨card, shown, held⟩
      · rintro k id ⟨card, shown, held⟩ _ holds
        rw [Board.put_cards_self] at shown
        obtain rfl := Option.some.inj shown
        rw [same] at holds
        exact free.successor _ k repeats held id
          (retainsKey_of_holds rules known finishes retires holds)

end InMemoryJobQueueState

end Lane
