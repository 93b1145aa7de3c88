import Lane.Board.Submission

/-! The checks and the deduplication loop over the children of a flow submission. -/

namespace Lane

namespace InMemoryJobQueueState

variable {s : InMemoryJobQueueState} {find : Find} {now : DateTime} {parentId : JobId}
  {existingIds : List JobId} {children : List Job} {duplicated : Finset JobId}

-----------------------------------------------------------------------------------------
-- Retained children
-----------------------------------------------------------------------------------------

/-- What the first check of a submission establishes about its children: the retained ones
are free to join the parent, and the others are not yet listed by it.
-/
structure Attachable (s : InMemoryJobQueueState) (parentId : JobId)
    (existingIds : List JobId) (children : List Job) (duplicated : Finset JobId)
    : Prop where
  submitted : ∀ id ∈ duplicated, id ∈ children.map Job.id
  retained
    : ∀ child ∈ children, child.id ∈ duplicated ↔ ∃ card, s.board.cards child.id = some card
  free
    : ∀ child ∈ children,
        ∀ card other,
          s.board.cards child.id = some card
          → card.parentId = some other
          → other = parentId ∨ s.board.cards other = none
  listed
    : ∀ child ∈ children,
        ∀ card,
          s.board.cards child.id = some card
          → child.id ∈ existingIds
          → card.parentId = some parentId
  fresh : ∀ child ∈ children, s.board.cards child.id = none → child.id ∉ existingIds

theorem validateExistingFlowChildParentLocked_ok {childId : JobId} {existing : Job}
    (accepted : s.validateExistingFlowChildParentLocked parentId childId = .ok ())
    (found : s.jobs.get childId = some existing) {other : JobId}
    (named : existing.parentId = some other)
    : other = parentId ∨ s.board.cards other = none := by
  unfold validateExistingFlowChildParentLocked at accepted
  simp only [found, named] at accepted
  split at accepted
  · cases accepted
  · next free =>
      by_cases same : other = parentId
      · exact .inl same
      · refine .inr (board_cards_none.mpr ?_)
        simp only [ne_eq, same, not_false_eq_true, true_and, Bool.not_eq_true] at free
        exact JobMap.containsKey_eq_false.mp free

/-- The check accumulates exactly the retained ids, by induction on the children. -/
theorem duplicatedFlowChildren_ok {collected : Finset JobId}
    (accepted
      : s.duplicatedFlowChildren parentId existingIds children collected = .ok duplicated)
    : (∀ id,
        id ∈ duplicated
        ↔ id ∈ collected
          ∨ ∃ child ∈ children, child.id = id ∧ ∃ card, s.board.cards id = some card)
      ∧ ∀ child ∈ children,
          (∀ card other,
            s.board.cards child.id = some card
            → card.parentId = some other
            → other = parentId ∨ s.board.cards other = none)
          ∧ (∀ card,
              s.board.cards child.id = some card
              → child.id ∈ existingIds
              → card.parentId = some parentId)
          ∧ (s.board.cards child.id = none → child.id ∉ existingIds) := by
  induction children generalizing collected with
  | nil =>
      simp only [duplicatedFlowChildren, Except.ok.injEq] at accepted
      simp [accepted]
  | cons child rest ih =>
      unfold duplicatedFlowChildren at accepted
      split at accepted
      · next existing found =>
          have shown := board_cards_of_get found
          split at accepted
          · cases accepted
          · next free =>
              split at accepted
              · cases accepted
              · next listed =>
                  obtain ⟨members, facts⟩ := ih accepted
                  refine ⟨?_, ?_⟩
                  · intro id
                    rw [members id, Finset.mem_insert]
                    constructor
                    · rintro ((rfl | early) | ⟨other, member, same, retained⟩)
                      · exact .inr ⟨child, List.mem_cons_self, rfl, _, shown⟩
                      · exact .inl early
                      · exact .inr ⟨other, List.mem_cons_of_mem child member, same, retained⟩
                    · rintro (early | ⟨other, member, same, retained⟩)
                      · exact .inl (.inr early)
                      · rcases List.mem_cons.mp member with rfl | member
                        · exact .inl (.inl same.symm)
                        · exact .inr ⟨other, member, same, retained⟩
                  · intro other member
                    rcases List.mem_cons.mp member with rfl | member
                    · refine ⟨?_, ?_, ?_⟩
                      · intro card named known parent
                        rw [shown] at known
                        obtain rfl := Option.some.inj known
                        exact validateExistingFlowChildParentLocked_ok free found parent
                      · intro card known inList
                        rw [shown] at known
                        obtain rfl := Option.some.inj known
                        by_contra different
                        exact listed ⟨inList, different⟩
                      · intro absent
                        rw [shown] at absent
                        cases absent
                    · exact facts other member
      · next absent =>
          have unshown := board_cards_none.mpr absent
          split at accepted
          · cases accepted
          · next unlisted =>
              obtain ⟨members, facts⟩ := ih accepted
              refine ⟨?_, ?_⟩
              · intro id
                rw [members id]
                refine or_congr_right ?_
                constructor
                · rintro ⟨other, member, same, retained⟩
                  exact ⟨other, List.mem_cons_of_mem child member, same, retained⟩
                · rintro ⟨other, member, same, card, known⟩
                  rcases List.mem_cons.mp member with rfl | member
                  · rw [← same, unshown] at known
                    cases known
                  · exact ⟨other, member, same, card, known⟩
              · intro other member
                rcases List.mem_cons.mp member with rfl | member
                · refine ⟨?_, ?_, fun _ => unlisted⟩
                  · intro card named known
                    rw [unshown] at known
                    cases known
                  · intro card known
                    rw [unshown] at known
                    cases known
                · exact facts other member

theorem attachable_of_ok
    (accepted : s.duplicatedFlowChildren parentId existingIds children ∅ = .ok duplicated)
    : s.Attachable parentId existingIds children duplicated := by
  obtain ⟨members, facts⟩ := duplicatedFlowChildren_ok accepted
  refine ⟨?_, ?_, fun child member => (facts child member).1,
    fun child member => (facts child member).2.1, fun child member => (facts child member).2.2⟩
  · intro id member
    rcases (members id).mp member with none | ⟨child, inChildren, same, _⟩
    · simp at none
    · exact List.mem_map.mpr ⟨child, inChildren, same⟩
  · intro child member
    rw [members]
    constructor
    · rintro (none | ⟨_, _, _, retained⟩)
      · simp at none
      · exact retained
    · intro retained
      exact .inr ⟨child, member, rfl, retained⟩

-----------------------------------------------------------------------------------------
-- Repeat keys of the inserted jobs
-----------------------------------------------------------------------------------------

/-- The check accepts jobs whose series are carried on by nobody and differ from each other,
by induction on the jobs.
-/
theorem checkFlowRepeatKeys_ok {keys : Finset String} {jobs : List Job}
    (accepted : checkFlowRepeatKeys find s.jobs keys jobs = .ok ())
    : (∀ job ∈ jobs,
        ∀ key,
          activeRepeatKey job = some key → key ∉ keys ∧ ∀ id, ¬ s.board.Carries key id)
      ∧ jobs.Pairwise
          (fun left right =>
            ∀ key, activeRepeatKey left = some key → activeRepeatKey right ≠ some key) := by
  induction jobs generalizing keys with
  | nil => simp
  | cons job rest ih =>
      unfold checkFlowRepeatKeys at accepted
      cases own : activeRepeatKey job with
      | none =>
          simp only [own] at accepted
          obtain ⟨uncarried, distinct⟩ := ih accepted
          refine ⟨?_, List.pairwise_cons.mpr ⟨?_, distinct⟩⟩
          · intro other member key series
            rcases List.mem_cons.mp member with rfl | member
            · rw [own] at series
              cases series
            · exact uncarried other member key series
          · intro other _ key series
            rw [own] at series
            cases series
      | some repeatKey =>
          simp only [own] at accepted
          split at accepted
          · cases accepted
          · next free =>
              simp only [not_or, Bool.not_eq_true, Option.isSome_eq_false_iff,
                Option.isNone_iff_eq_none] at free
              obtain ⟨uncarried, distinct⟩ := ih accepted
              refine ⟨?_, List.pairwise_cons.mpr ⟨?_, distinct⟩⟩
              · intro other member key series
                rcases List.mem_cons.mp member with rfl | member
                · rw [own] at series
                  obtain rfl := Option.some.inj series
                  exact ⟨free.2, not_carries_of_find free.1⟩
                · obtain ⟨unseen, nobody⟩ := uncarried other member key series
                  exact ⟨fun early => unseen (Finset.mem_insert_of_mem early), nobody⟩
              · intro other member key series same
                rw [own] at series
                obtain rfl := Option.some.inj series
                exact (uncarried other member repeatKey same).1 (Finset.mem_insert_self _ _)

end InMemoryJobQueueState

-----------------------------------------------------------------------------------------
-- The deduplication loop
-----------------------------------------------------------------------------------------

/-- The child would be kept as the last duplicate of an active owner of its key. -/
def Board.RequiresNext (b : Board) (now : DateTime) (key : String) (child : Job) : Prop :=
  activeDeduplicationId child now = some key
    ∧ child.options.deduplication.any DeduplicationOptions.keepLastIfActive = true
    ∧ ∃ ownerId card,
        b.cards ownerId = some card ∧ card.phase = .active ∧ b.Owns now key ownerId

namespace FlowDeduplication

/-- A child of a submitted parent is superseded once a later one is kept under its key. -/
def Supersedes (start d : FlowDeduplication) (now : DateTime) (submittedParent : Bool)
    (key : String) (child : Job)
    : Prop :=
  submittedParent = true
    ∧ start.state.board.RequiresNext now key child
    ∧ (d.deduplicatedNextChildById.lookup key).isSome = true

/-- What the loop has established after the children `done`, relative to its start. -/
structure Facts (now : DateTime) (submittedParent : Bool) (duplicated : Finset JobId)
    (start : FlowDeduplication) (done : List Job) (d : FlowDeduplication)
    : Prop where
  retimes : start.state.board.Retimes d.state.board
  owns
    : ∀ {key id}, d.state.board.Owns now key id → start.state.board.Owns now key id
  coalesced
    : ∀ {id},
        (d.deduplicatedChildren.lookup id).isSome = true
        → id ∈ done.map Job.id ∧ id ∉ duplicated
  keptIds
    : ∀ {id},
        (d.deduplicatedNextChildren.lookup id).isSome = true
        → ∃ key, d.deduplicatedNextChildById.lookup key = some id
  absorbed
    : submittedParent = false
      → ∀ {id},
          (d.deduplicatedNextChildren.lookup id).isSome = true
          → (d.deduplicatedChildren.lookup id).isSome = true
  apart
    : submittedParent = true
      → ∀ {id},
          (d.deduplicatedNextChildren.lookup id).isSome = true
          → d.deduplicatedChildren.lookup id = none
  kept
    : ∀ {key id},
        d.deduplicatedNextChildById.lookup key = some id
        → (∃ child ∈ done,
            child.id = id
            ∧ activeDeduplicationId child now = some key
            ∧ d.state.board.next key = some child
            ∧ start.state.board.RequiresNext now key child)
          ∧ id ∉ duplicated
          ∧ d.state.board.nextFlows key = none
          ∧ (d.deduplicatedNextChildren.lookup id).isSome = true
  unkept
    : ∀ {key},
        d.deduplicatedNextChildById.lookup key = none
        → d.state.board.next key = start.state.board.next key
          ∧ d.state.board.nextFlows key = start.state.board.nextFlows key
  fresh
    : ∀ child ∈ done,
        d.insertsChild duplicated child = true
        → ∀ key,
            activeDeduplicationId child now = some key
            → (∀ id, ¬ d.state.board.Owns now key id)
                ∧ key ∈ d.flowDeduplicationIds
                ∧ key ∉ start.flowDeduplicationIds
              ∨ Supersedes start d now submittedParent key child
  distinct
    : ∀ left ∈ done,
        ∀ right ∈ done,
          d.insertsChild duplicated left = true
          → d.insertsChild duplicated right = true
          → ∀ key,
              activeDeduplicationId left now = some key
              → activeDeduplicationId right now = some key
              → left.id = right.id
                ∨ Supersedes start d now submittedParent key left
                ∨ Supersedes start d now submittedParent key right
  listed : ∀ id ∈ d.childIds, id ∈ start.childIds
  dropped
    : ∀ id ∈ start.childIds,
        id ∉ d.childIds
        → ∃ child ∈ done,
            child.id = id
            ∧ d.insertsChild duplicated child = true
            ∧ ∃ key, Supersedes start d now submittedParent key child
  noted : start.flowDeduplicationIds ⊆ d.flowDeduplicationIds

variable {find : Find} {now : DateTime} {submittedParent : Bool} {duplicated : Finset JobId}
  {start d after : FlowDeduplication} {done : List Job} {child existing : Job} {key : String}

theorem insertsChild_iff
    : d.insertsChild duplicated child = true
      ↔ child.id ∉ duplicated
        ∧ d.deduplicatedChildren.lookup child.id = none
        ∧ d.deduplicatedNextChildren.lookup child.id = none := by
  simp [insertsChild, and_assoc]

/-- The loop starts with nothing recorded. -/
theorem Facts.initial (coalesced : start.deduplicatedChildren = ∅)
    (kept : start.deduplicatedNextChildren = ∅) (byId : start.deduplicatedNextChildById = ∅)
    : Facts now submittedParent duplicated start [] start where
  retimes := .refl _
  owns owns := owns
  coalesced := by simp [coalesced]
  keptIds := by simp [kept]
  absorbed := by simp [kept]
  apart := by simp [kept]
  kept := by simp [byId]
  unkept _ := ⟨rfl, rfl⟩
  fresh := by simp
  distinct := by simp
  listed := by simp
  dropped id member gone := absurd member gone
  noted := Finset.Subset.refl _

/-- A child that is not deduplicated and has no deduplication id to note changes nothing. -/
theorem Facts.skip (facts : Facts now submittedParent duplicated start done d)
    (idle : d.insertsChild duplicated child = true → activeDeduplicationId child now = none)
    : Facts now submittedParent duplicated start (done ++ [child]) d := by
  have early {other : Job} {key : String} (member : other ∈ done ++ [child])
      (inserts : d.insertsChild duplicated other = true)
      (active : activeDeduplicationId other now = some key)
      : other ∈ done := by
    rcases List.mem_append.mp member with before | last
    · exact before
    · obtain rfl : other = child := by simpa using last
      rw [idle inserts] at active
      cases active
  refine
    { facts with
      coalesced := ?_
      kept := ?_
      fresh := ?_
      distinct := ?_
      dropped := ?_ }
  · intro id recorded
    obtain ⟨member, apart⟩ := facts.coalesced recorded
    exact ⟨by simp [member], apart⟩
  · intro key id recorded
    obtain ⟨⟨other, member, kept⟩, rest⟩ := facts.kept recorded
    exact ⟨⟨other, List.mem_append_left _ member, kept⟩, rest⟩
  · intro other member inserts key active
    exact facts.fresh other (early member inserts active) inserts key active
  · intro left leftMember right rightMember leftInserts rightInserts key leftKey rightKey
    exact facts.distinct left (early leftMember leftInserts leftKey) right
      (early rightMember rightInserts rightKey) leftInserts rightInserts key leftKey rightKey
  · intro id member gone
    obtain ⟨other, inDone, rest⟩ := facts.dropped id member gone
    exact ⟨other, List.mem_append_left _ inDone, rest⟩

/-- A child whose deduplication id nobody owns notes it for the rest of the submission. -/
theorem Facts.note (facts : Facts now submittedParent duplicated start done d)
    (active : activeDeduplicationId child now = some key)
    (unowned : ∀ id, ¬ d.state.board.Owns now key id)
    (unnoted : key ∉ d.flowDeduplicationIds)
    : Facts now submittedParent duplicated start (done ++ [child])
        { d with flowDeduplicationIds := insert key d.flowDeduplicationIds } := by
  have unnotedBefore {other : Job} (member : other ∈ done)
      (inserts : d.insertsChild duplicated other = true)
      (otherActive : activeDeduplicationId other now = some key)
      : Supersedes start d now submittedParent key other := by
    rcases facts.fresh other member inserts key otherActive with ⟨_, noted, _⟩ | superseded
    · exact absurd noted unnoted
    · exact superseded
  refine
    { facts with
      coalesced := ?_
      kept := ?_
      fresh := ?_
      distinct := ?_
      dropped := ?_
      noted := ?_ }
  · intro id recorded
    obtain ⟨member, apart⟩ := facts.coalesced recorded
    exact ⟨by simp [member], apart⟩
  · intro key id recorded
    obtain ⟨⟨other, member, kept⟩, rest⟩ := facts.kept recorded
    exact ⟨⟨other, List.mem_append_left _ member, kept⟩, rest⟩
  · intro other member inserts otherKey otherActive
    rcases List.mem_append.mp member with early | last
    · rcases facts.fresh other early inserts otherKey otherActive with
        ⟨nobody, noted, new⟩ | superseded
      · exact .inl ⟨nobody, Finset.mem_insert_of_mem noted, new⟩
      · exact .inr superseded
    · obtain rfl : other = child := by simpa using last
      rw [active] at otherActive
      obtain rfl := Option.some.inj otherActive
      exact .inl ⟨unowned, Finset.mem_insert_self _ _, fun early => unnoted (facts.noted early)⟩
  · intro left leftMember right rightMember leftInserts rightInserts other leftKey rightKey
    rcases List.mem_append.mp leftMember with leftEarly | leftLast
    · rcases List.mem_append.mp rightMember with rightEarly | rightLast
      · exact facts.distinct left leftEarly right rightEarly leftInserts rightInserts other leftKey
          rightKey
      · obtain rfl : right = child := by simpa using rightLast
        rw [active] at rightKey
        obtain rfl := Option.some.inj rightKey
        exact .inr (.inl (unnotedBefore leftEarly leftInserts leftKey))
    · obtain rfl : left = child := by simpa using leftLast
      rcases List.mem_append.mp rightMember with rightEarly | rightLast
      · rw [active] at leftKey
        obtain rfl := Option.some.inj leftKey
        exact .inr (.inr (unnotedBefore rightEarly rightInserts rightKey))
      · obtain rfl : right = left := by simpa using rightLast
        exact .inl rfl
  · intro id member gone
    obtain ⟨other, inDone, rest⟩ := facts.dropped id member gone
    exact ⟨other, List.mem_append_left _ inDone, rest⟩
  · exact facts.noted.trans (Finset.subset_insert _ _)

/-- A child that an owner absorbs is recorded with it, and may extend the owner's TTL. -/
theorem Facts.coalesce {state : InMemoryJobQueueState}
    (facts : Facts now submittedParent duplicated start done d)
    (apart : child.id ∉ duplicated) (new : child.id ∉ done.map Job.id)
    (retimes : d.state.board.Retimes state.board)
    (owns : ∀ {key id}, state.board.Owns now key id → d.state.board.Owns now key id)
    (next : state.board.next = d.state.board.next)
    (nextFlows : state.board.nextFlows = d.state.board.nextFlows)
    : Facts now submittedParent duplicated start (done ++ [child])
        { d with
          state
          deduplicatedChildren := d.deduplicatedChildren.insert child.id existing } := by
  have lookup (id : JobId) (different : id ≠ child.id)
      : (d.deduplicatedChildren.insert child.id existing).lookup id
        = d.deduplicatedChildren.lookup id := AList.lookup_insert_ne different
  have doneNe {other : Job} (member : other ∈ done) : other.id ≠ child.id := by
    intro same
    exact new (same ▸ List.mem_map_of_mem member)
  have keptNe {id : JobId} (recorded : (d.deduplicatedNextChildren.lookup id).isSome = true)
      : id ≠ child.id := by
    obtain ⟨key, known⟩ := facts.keptIds recorded
    obtain ⟨⟨other, member, rfl, _⟩, _⟩ := facts.kept known
    exact doneNe member
  have before {other : Job} (member : other ∈ done ++ [child])
      (inserts
        : FlowDeduplication.insertsChild
            { d with
              state
              deduplicatedChildren := d.deduplicatedChildren.insert child.id existing }
            duplicated other = true)
      : other ∈ done ∧ d.insertsChild duplicated other = true := by
    rw [insertsChild_iff] at inserts
    rcases List.mem_append.mp member with early | last
    · refine ⟨early, ?_⟩
      rw [insertsChild_iff]
      have unabsorbed := inserts.2.1
      rw [lookup _ (doneNe early)] at unabsorbed
      exact ⟨inserts.1, unabsorbed, inserts.2.2⟩
    · obtain rfl : other = child := by simpa using last
      have absorbed := inserts.2.1
      simp at absorbed
  refine
    { facts with
      retimes := facts.retimes.trans retimes
      owns := fun held => facts.owns (owns held)
      coalesced := ?_
      absorbed := ?_
      apart := ?_
      kept := ?_
      unkept := ?_
      fresh := ?_
      distinct := ?_
      dropped := ?_ }
  · intro id recorded
    by_cases same : id = child.id
    · subst same
      exact ⟨by simp, apart⟩
    · simp only [lookup id same] at recorded
      obtain ⟨member, free⟩ := facts.coalesced recorded
      exact ⟨by simp [member], free⟩
  · intro retained id recorded
    simp only [lookup id (keptNe recorded)]
    exact facts.absorbed retained recorded
  · intro static id recorded
    simp only [lookup id (keptNe recorded)]
    exact facts.apart static recorded
  · intro key id recorded
    obtain ⟨⟨other, member, sameId, active, kept, requires⟩, free, noFlow, recordedId⟩ :=
      facts.kept recorded
    refine ⟨⟨other, List.mem_append_left _ member, sameId, active, ?_, requires⟩, free, ?_,
      recordedId⟩
    · rw [next]
      exact kept
    · rw [nextFlows]
      exact noFlow
  · intro key unrecorded
    rw [next, nextFlows]
    exact facts.unkept unrecorded
  · intro other member inserts key active
    obtain ⟨early, insertsBefore⟩ := before member inserts
    rcases facts.fresh other early insertsBefore key active with ⟨nobody, noted⟩ | superseded
    · exact .inl ⟨fun id held => nobody id (owns held), noted⟩
    · exact .inr superseded
  · intro left leftMember right rightMember leftInserts rightInserts key leftKey rightKey
    obtain ⟨leftEarly, leftBefore⟩ := before leftMember leftInserts
    obtain ⟨rightEarly, rightBefore⟩ := before rightMember rightInserts
    exact facts.distinct left leftEarly right rightEarly leftBefore rightBefore key leftKey
      rightKey
  · intro id member gone
    obtain ⟨other, inDone, sameId, inserts, rest⟩ := facts.dropped id member gone
    refine ⟨other, List.mem_append_left _ inDone, sameId, ?_, rest⟩
    rw [insertsChild_iff] at inserts ⊢
    simp only [lookup other.id (doneNe inDone)]
    exact inserts

/-- The lookups after a child was kept as the successor of its owner. -/
structure KeptLookups (submittedParent : Bool) (key : String) (child : Job)
    (d after : FlowDeduplication)
    : Prop where
  byKey : after.deduplicatedNextChildById.lookup key = some child.id
  byOther
    : ∀ {other},
        other ≠ key
        → after.deduplicatedNextChildById.lookup other
          = d.deduplicatedNextChildById.lookup other
  keptChild : (after.deduplicatedNextChildren.lookup child.id).isSome = true
  keptOther
    : ∀ {id},
        id ≠ child.id
        → ((after.deduplicatedNextChildren.lookup id).isSome = true
          ↔ (d.deduplicatedNextChildren.lookup id).isSome = true
            ∧ d.deduplicatedNextChildById.lookup key ≠ some id)
  absorbedOther
    : ∀ {id},
        id ≠ child.id
        → after.deduplicatedChildren.lookup id = d.deduplicatedChildren.lookup id
  absorbedChild
    : submittedParent = false → (after.deduplicatedChildren.lookup child.id).isSome = true
  static : submittedParent = true → after.deduplicatedChildren = d.deduplicatedChildren
  childIds
    : ∀ {id},
        id ∈ after.childIds
        ↔ id ∈ d.childIds
          ∧ (submittedParent = true → d.deduplicatedNextChildById.lookup key ≠ some id)
  noted : after.flowDeduplicationIds = d.flowDeduplicationIds

theorem keptLookups (d : FlowDeduplication) (submittedParent : Bool) (key : String)
    (child existing : Job)
    : KeptLookups submittedParent key child d
        (d.keepNext submittedParent key child existing) where
  byKey := by simp [keepNext]
  byOther different := by simp [keepNext, different]
  keptChild := by simp [keepNext]
  keptOther := by
    intro id different
    unfold keepNext
    simp only
    rw [AList.lookup_insert_ne different]
    cases previous : d.deduplicatedNextChildById.lookup key with
    | none => simp
    | some other =>
        by_cases same : id = other
        · subst same
          simp
        · rw [AList.lookup_erase_ne same]
          simp [Ne.symm same]
  absorbedOther := by
    intro id different
    unfold keepNext
    simp only
    split
    · rfl
    · rw [AList.lookup_insert_ne different]
  absorbedChild := by
    intro retained
    simp [keepNext, retained]
  static := by
    rintro rfl
    rfl
  childIds := by
    intro id
    unfold keepNext
    cases submittedParent with
    | false => simp
    | true =>
        simp only [if_true, List.mem_filter, bne_iff_ne, ne_eq, forall_const]
        exact and_congr_right fun _ => not_congr eq_comm
  noted := rfl

/-- A child that is kept as its owner's successor supersedes an earlier one with its key. -/
theorem Facts.keep {state : InMemoryJobQueueState}
    (facts : Facts now submittedParent duplicated start done d)
    (lookups : KeptLookups submittedParent key child { d with state } after)
    (sameState : after.state = state)
    (requires : start.state.board.RequiresNext now key child)
    (apart : child.id ∉ duplicated) (new : child.id ∉ done.map Job.id)
    (distinctIds : (done.map Job.id).Nodup)
    (retimes : d.state.board.Retimes state.board)
    (owns : ∀ {key id}, state.board.Owns now key id → d.state.board.Owns now key id)
    (next : state.board.next = Function.update d.state.board.next key (some child))
    (nextFlows : state.board.nextFlows = Function.update d.state.board.nextFlows key none)
    : Facts now submittedParent duplicated start (done ++ [child]) after := by
  have doneNe {other : Job} (member : other ∈ done) : other.id ≠ child.id := by
    intro same
    exact new (same ▸ List.mem_map_of_mem member)
  have keptNe {other : String} {id : JobId}
      (recorded : d.deduplicatedNextChildById.lookup other = some id)
      : id ≠ child.id := by
    obtain ⟨⟨kept, member, rfl, _⟩, _⟩ := facts.kept recorded
    exact doneNe member
  -- A child that is inserted after this step was inserted before, or is superseded by it.
  have before {other : Job} (member : other ∈ done ++ [child])
      (inserts : after.insertsChild duplicated other = true)
      : other ∈ done
        ∧ (d.insertsChild duplicated other = true
          ∨ submittedParent = true ∧ d.deduplicatedNextChildById.lookup key = some other.id) := by
    rw [insertsChild_iff] at inserts
    obtain ⟨free, unabsorbed, unkept⟩ := inserts
    rcases List.mem_append.mp member with early | last
    · refine ⟨early, ?_⟩
      have different := doneNe early
      rw [lookups.absorbedOther different] at unabsorbed
      by_cases kept : (d.deduplicatedNextChildren.lookup other.id).isSome = true
      · have superseded : d.deduplicatedNextChildById.lookup key = some other.id := by
          by_contra otherwise
          have still := (lookups.keptOther different).mpr ⟨kept, otherwise⟩
          rw [unkept] at still
          cases still
        cases static : submittedParent with
        | true => exact .inr ⟨rfl, superseded⟩
        | false =>
            have absorbed := facts.absorbed static kept
            rw [unabsorbed] at absorbed
            cases absorbed
      · exact .inl (insertsChild_iff.mpr ⟨free, unabsorbed, by simpa using kept⟩)
    · obtain rfl : other = child := by simpa using last
      have kept := lookups.keptChild
      rw [unkept] at kept
      cases kept
  have supersededKey {other : Job} {otherKey : String} (member : other ∈ done)
      (superseded : d.deduplicatedNextChildById.lookup key = some other.id)
      (otherActive : activeDeduplicationId other now = some otherKey)
      : otherKey = key ∧ start.state.board.RequiresNext now key other := by
    obtain ⟨⟨kept, keptMember, sameId, keptActive, _, keptRequires⟩, _⟩ := facts.kept superseded
    obtain rfl := List.inj_on_of_nodup_map distinctIds keptMember member sameId
    rw [keptActive] at otherActive
    exact ⟨(Option.some.inj otherActive).symm, keptRequires⟩
  have stillSuperseded {other : String} {superseded : Job}
      (was : Supersedes start d now submittedParent other superseded)
      : Supersedes start after now submittedParent other superseded := by
    obtain ⟨static, otherRequires, kept⟩ := was
    refine ⟨static, otherRequires, ?_⟩
    by_cases same : other = key
    · rw [same, lookups.byKey]
      rfl
    · rw [lookups.byOther same]
      exact kept
  subst sameState
  exact {
    retimes := facts.retimes.trans retimes
    owns := fun held => facts.owns (owns held)
    coalesced := by
      intro id recorded
      by_cases same : id = child.id
      · subst same
        exact ⟨by simp, apart⟩
      · rw [lookups.absorbedOther same] at recorded
        obtain ⟨member, free⟩ := facts.coalesced recorded
        exact ⟨by simp [member], free⟩
    keptIds := by
      intro id recorded
      by_cases same : id = child.id
      · exact ⟨key, same ▸ lookups.byKey⟩
      · obtain ⟨kept, current⟩ := (lookups.keptOther same).mp recorded
        obtain ⟨other, known⟩ := facts.keptIds kept
        refine ⟨other, ?_⟩
        rw [lookups.byOther]
        · exact known
        · rintro rfl
          exact current known
    absorbed := by
      intro retained id recorded
      by_cases same : id = child.id
      · exact same ▸ lookups.absorbedChild retained
      · rw [lookups.absorbedOther same]
        exact facts.absorbed retained ((lookups.keptOther same).mp recorded).1
    apart := by
      intro static id recorded
      rw [lookups.static static]
      by_cases same : id = child.id
      · subst same
        by_contra some
        exact new (facts.coalesced (by simpa [Option.isSome_iff_ne_none] using some)).1
      · exact facts.apart static ((lookups.keptOther same).mp recorded).1
    kept := by
      intro other id recorded
      by_cases same : other = key
      · subst same
        rw [lookups.byKey] at recorded
        obtain rfl := Option.some.inj recorded
        refine ⟨⟨child, by simp, rfl, requires.1, ?_, requires⟩, apart, ?_, lookups.keptChild⟩
        · rw [next, Function.update_self]
        · rw [nextFlows, Function.update_self]
      · rw [lookups.byOther same] at recorded
        obtain ⟨⟨kept, member, sameId, keptActive, stored, keptRequires⟩, free, noFlow, keptId⟩ :=
          facts.kept recorded
        refine ⟨⟨kept, List.mem_append_left _ member, sameId, keptActive, ?_, keptRequires⟩, free,
          ?_, ?_⟩
        · rw [next, Function.update_of_ne same]
          exact stored
        · rw [nextFlows, Function.update_of_ne same]
          exact noFlow
        · refine (lookups.keptOther (keptNe recorded)).mpr ⟨keptId, ?_⟩
          intro superseded
          exact same (supersededKey member (sameId ▸ superseded) keptActive).1
    unkept := by
      intro other unrecorded
      have different : other ≠ key := by
        rintro rfl
        rw [lookups.byKey] at unrecorded
        cases unrecorded
      rw [next, nextFlows, Function.update_of_ne different, Function.update_of_ne different]
      rw [lookups.byOther different] at unrecorded
      exact facts.unkept unrecorded
    fresh := by
      intro other member inserts otherKey otherActive
      obtain ⟨early, insertsBefore | ⟨static, superseded⟩⟩ := before member inserts
      · rcases facts.fresh other early insertsBefore otherKey otherActive with
          ⟨nobody, noted, unnoted⟩ | superseded
        · refine .inl ⟨fun id held => nobody id (owns held), ?_, unnoted⟩
          rw [lookups.noted]
          exact noted
        · exact .inr (stillSuperseded superseded)
      · obtain ⟨rfl, otherRequires⟩ := supersededKey early superseded otherActive
        exact .inr ⟨static, otherRequires, by rw [lookups.byKey]; rfl⟩
    distinct := by
      intro left leftMember right rightMember leftInserts rightInserts otherKey leftKey rightKey
      obtain ⟨leftEarly, leftBefore | ⟨static, superseded⟩⟩ := before leftMember leftInserts
      · obtain ⟨rightEarly, rightBefore | ⟨static, superseded⟩⟩ := before rightMember rightInserts
        · exact (facts.distinct left leftEarly right rightEarly leftBefore rightBefore otherKey
            leftKey rightKey).imp_right (.imp stillSuperseded stillSuperseded)
        · obtain ⟨rfl, otherRequires⟩ := supersededKey rightEarly superseded rightKey
          exact .inr (.inr ⟨static, otherRequires, by rw [lookups.byKey]; rfl⟩)
      · obtain ⟨rfl, otherRequires⟩ := supersededKey leftEarly superseded leftKey
        exact .inr (.inl ⟨static, otherRequires, by rw [lookups.byKey]; rfl⟩)
    listed := fun id member => facts.listed id (lookups.childIds.mp member).1
    dropped := by
      intro id member gone
      by_cases still : id ∈ d.childIds
      · obtain ⟨static, superseded⟩
            : submittedParent = true ∧ d.deduplicatedNextChildById.lookup key = some id := by
          by_contra otherwise
          refine gone (lookups.childIds.mpr ⟨still, ?_⟩)
          intro static superseded
          exact otherwise ⟨static, superseded⟩
        obtain ⟨⟨kept, keptMember, rfl, _, _, keptRequires⟩, free, _, keptId⟩ :=
          facts.kept superseded
        refine ⟨kept, List.mem_append_left _ keptMember, rfl, ?_, key, static, keptRequires, ?_⟩
        · rw [insertsChild_iff]
          refine ⟨free, ?_, ?_⟩
          · rw [lookups.static static]
            exact facts.apart static keptId
          · by_contra some
            have recorded
                : (after.deduplicatedNextChildren.lookup kept.id).isSome = true := by
              simpa [Option.isSome_iff_ne_none] using some
            exact ((lookups.keptOther (doneNe keptMember)).mp recorded).2 superseded
        · rw [lookups.byKey]
          rfl
      · obtain ⟨other, inDone, sameId, inserts, otherKey, otherSuperseded⟩ :=
          facts.dropped id member still
        refine ⟨other, List.mem_append_left _ inDone, sameId, ?_, otherKey,
          stillSuperseded otherSuperseded⟩
        rw [insertsChild_iff] at inserts ⊢
        refine ⟨inserts.1, ?_, ?_⟩
        · rw [lookups.absorbedOther (doneNe inDone)]
          exact inserts.2.1
        · by_contra some
          have recorded
              : (after.deduplicatedNextChildren.lookup other.id).isSome = true := by
            simpa [Option.isSome_iff_ne_none] using some
          have old := ((lookups.keptOther (doneNe inDone)).mp recorded).1
          simp only [inserts.2.2] at old
          cases old
    noted := by
      rw [lookups.noted]
      exact facts.noted
  }

-----------------------------------------------------------------------------------------
-- One child, then all children
-----------------------------------------------------------------------------------------

/-- A child that requires a place after its owner already required it at the start. -/
theorem Facts.requiresNext_of_found (facts : Facts now submittedParent duplicated start done d)
    (active : activeDeduplicationId child now = some key)
    (found
      : findActiveDeduplicationId find d.state.jobs d.state.releasedDeduplicationOwners key now
        = some existing)
    (requires : flowChildDeduplicationRequiresNext child existing = true)
    : start.state.board.RequiresNext now key child := by
  obtain ⟨stored, owns⟩ := InMemoryJobQueueState.owns_of_find found
  obtain ⟨keepsLast, isActive⟩ := Bool.and_eq_true_iff.mp requires
  obtain ⟨card, shown, same⟩ :=
    facts.retimes.card_before (InMemoryJobQueueState.board_cards_of_get stored)
  refine ⟨active, keepsLast, existing.id, card, shown, ?_, facts.owns owns⟩
  have samePhase := congrArg Card.phase same
  simp only [Card.untimed, Job.card] at samePhase
  rw [← samePhase, JobState.phase_eq_active]
  exact beq_iff_eq.mp isActive

/-- One accepted child extends the facts; a rejected one leaves the state as it was. -/
theorem Facts.addChild {result : Result Unit}
    (facts : Facts now submittedParent duplicated start done d)
    (new : child.id ∉ done.map Job.id) (distinctIds : (done.map Job.id).Nodup)
    (run : d.addChild find now submittedParent duplicated child = (after, result))
    : (result = .ok () → Facts now submittedParent duplicated start (done ++ [child]) after)
      ∧ (result ≠ .ok () → after.state = d.state) := by
  unfold FlowDeduplication.addChild at run
  split at run
  · next member =>
      cases run
      refine ⟨fun _ => facts.skip ?_, fun refused => absurd rfl refused⟩
      intro inserts
      exact absurd member (insertsChild_iff.mp inserts).1
  · next apart =>
      split at run
      · next inactive =>
          cases run
          exact ⟨fun _ => facts.skip (fun _ => inactive), fun refused => absurd rfl refused⟩
      · next key active =>
          split at run
          · next existing found =>
              have owner := (InMemoryJobQueueState.owns_of_find found).2
              have own := InMemoryJobQueueState.activeDeduplicationId_some active
              split at run
              · next requiresNext =>
                rcases InMemoryJobQueueState.board_storeDeduplicatedNextLocked d.state child existing
                  with same | ⟨other, _, known, stored, board⟩
                · rw [same] at run
                  cases run
                  exact ⟨fun accepted => (by cases accepted), fun _ => rfl⟩
                · rw [own] at known
                  obtain rfl := Option.some.inj known
                  generalize written
                    : d.state.storeDeduplicatedNextLocked child existing = outcome at run stored board
                  obtain ⟨state, kept⟩ := outcome
                  simp only at stored board
                  subst stored
                  simp only [Prod.mk.injEq] at run
                  obtain ⟨rfl, rfl⟩ := run
                  refine ⟨fun _ => ?_, fun refused => absurd rfl refused⟩
                  refine facts.keep (keptLookups { d with state } submittedParent key child existing)
                    rfl (facts.requiresNext_of_found active found requiresNext) apart new
                    distinctIds ?_ ?_ ?_ ?_
                  · rw [board]
                    exact (Board.retimes_keep _ _ _ _).trans (Board.retimes_expire _ _ _)
                  · intro other id held
                    rw [board] at held
                    exact Board.expire_owns (b := d.state.board.keep key (some child) none)
                      ⟨key, owner⟩ held
                  · rw [board]
                    rfl
                  · rw [board]
                    rfl
              · simp only [Prod.mk.injEq] at run
                obtain ⟨rfl, rfl⟩ := run
                refine ⟨fun _ => ?_, fun refused => absurd rfl refused⟩
                have coalesces := InMemoryJobQueueState.coalesces_extend d.state child existing.id now
                  key (fun _ => False) (fun _ => False)
                have untouched
                    : (d.state.extendDeduplicationExpirationLocked child existing.id now).1.board.next
                        = d.state.board.next
                      ∧ (d.state.extendDeduplicationExpirationLocked child existing.id
                          now).1.board.nextFlows = d.state.board.nextFlows := by
                  rcases InMemoryJobQueueState.board_extendDeduplicationExpirationLocked d.state
                    child existing.id now with same | ⟨_, board⟩
                  · rw [same]
                    exact ⟨rfl, rfl⟩
                  · rw [board]
                    exact ⟨rfl, rfl⟩
                exact facts.coalesce apart new coalesces.retimes
                  (fun held => coalesces.owns owner held) untouched.1 untouched.2
          · next unowned =>
              split at run
              · cases run
                exact ⟨fun accepted => (by cases accepted), fun _ => rfl⟩
              · next unnoted =>
                  simp only [Prod.mk.injEq] at run
                  obtain ⟨rfl, rfl⟩ := run
                  exact ⟨fun _ => facts.note active
                      (InMemoryJobQueueState.not_owns_of_find unowned) unnoted,
                    fun refused => absurd rfl refused⟩

/-- The loop establishes the facts for the children that it accepted, which are all of them
when it succeeds, and leaves the state of the last accepted one.
-/
theorem Facts.addChildren {rest : List Job} {result : Result Unit}
    (facts : Facts now submittedParent duplicated start done d)
    (distinctIds : ((done ++ rest).map Job.id).Nodup)
    (run : d.addChildren find now submittedParent duplicated rest = (after, result))
    : ∃ more last,
        more <+: rest
        ∧ Facts now submittedParent duplicated start (done ++ more) last
        ∧ after.state = last.state
        ∧ (result = .ok () → more = rest ∧ after = last) := by
  induction rest generalizing d done with
  | nil =>
      simp only [FlowDeduplication.addChildren, Prod.mk.injEq] at run
      obtain ⟨rfl, rfl⟩ := run
      exact ⟨[], d, List.prefix_rfl, by simpa using facts, rfl, fun _ => ⟨rfl, rfl⟩⟩
  | cons child rest ih =>
      have early : (done.map Job.id).Nodup := by
        rw [List.map_append] at distinctIds
        exact (List.nodup_append.mp distinctIds).1
      have new : child.id ∉ done.map Job.id := by
        rw [List.map_append] at distinctIds
        intro member
        exact (List.nodup_append.mp distinctIds).2.2 child.id member child.id (by simp) rfl
      unfold FlowDeduplication.addChildren at run
      generalize outcome : d.addChild find now submittedParent duplicated child = one at run
      obtain ⟨middle, answer⟩ := one
      obtain ⟨accepted, rejected⟩ := facts.addChild new early outcome
      cases answer with
      | error error =>
          simp only [Prod.mk.injEq] at run
          obtain ⟨rfl, rfl⟩ := run
          refine ⟨[], d, List.nil_prefix, by simpa using facts, rejected (by simp), ?_⟩
          intro impossible
          cases impossible
      | ok =>
          simp only at run
          obtain ⟨more, last, within, final, state, all⟩ :=
            ih (accepted rfl) (by simpa using distinctIds) run
          refine ⟨child :: more, last, List.cons_prefix_cons.mpr ⟨rfl, within⟩, by simpa using final,
            state, ?_⟩
          intro success
          obtain ⟨rfl, same⟩ := all success
          exact ⟨rfl, same⟩

end FlowDeduplication

end Lane
