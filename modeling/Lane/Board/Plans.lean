import Lane.Board.Children

/-! The plan of a flow submission that passed its checks: what the deduplication loop keeps,
which children join the parent, and how the submission ends.
-/

namespace Lane

namespace Board

variable {b : Board} {id parentId : JobId} {card : Card} {ids more : Set JobId}

open Classical in
/-- Names a parent on the cards of retained jobs. -/
noncomputable def attach (b : Board) (parentId : JobId) (ids : Set JobId) : Board :=
  { b with
    cards := fun id =>
      if id ∈ ids then
        (b.cards id).map (fun card => { card with parentId := some parentId })
      else
        b.cards id }

@[simp] theorem attach_next : (b.attach parentId ids).next = b.next := rfl
@[simp] theorem attach_nextFlows : (b.attach parentId ids).nextFlows = b.nextFlows := rfl

theorem attach_cards_of_mem (member : id ∈ ids)
    : (b.attach parentId ids).cards id
      = (b.cards id).map (fun card => { card with parentId := some parentId }) := by
  simp [attach, member]

theorem attach_cards_of_notMem (apart : id ∉ ids)
    : (b.attach parentId ids).cards id = b.cards id := by
  simp [attach, apart]

/-- An attached card only names its new parent. -/
theorem attach_cards_some (found : (b.attach parentId ids).cards id = some card)
    : ∃ old,
        b.cards id = some old
        ∧ (id ∉ ids ∧ card = old
          ∨ id ∈ ids ∧ card = { old with parentId := some parentId }) := by
  by_cases member : id ∈ ids
  · rw [attach_cards_of_mem member] at found
    obtain ⟨old, shown, rfl⟩ := Option.map_eq_some_iff.mp found
    exact ⟨old, shown, .inr ⟨member, rfl⟩⟩
  · rw [attach_cards_of_notMem member] at found
    exact ⟨card, found, .inl ⟨member, rfl⟩⟩

theorem attach_attach
    : (b.attach parentId ids).attach parentId more = b.attach parentId (ids ∪ more) := by
  ext1
  · funext id
    by_cases first : id ∈ ids <;> by_cases second : id ∈ more <;>
      simp [attach, first, second, Function.comp_def]
  · rfl
  · rfl

theorem put_attach (apart : id ∉ ids)
    : (b.put id card).attach parentId ids = (b.attach parentId ids).put id card := by
  ext1
  · funext other
    by_cases same : other = id
    · subst same
      rw [attach_cards_of_notMem apart, put_cards_self, put_cards_self]
    · rw [put_cards_ne same]
      simp only [attach]
      rw [put_cards_ne same]
  · rfl
  · rfl

@[simp] theorem attach_empty : b.attach parentId ∅ = b := by
  simp [attach]

end Board

-----------------------------------------------------------------------------------------
-- Storing the children
-----------------------------------------------------------------------------------------

/-- What every record of a submission's children has in common. -/
structure ChildRecords (parentId : JobId) (children : List Job) : Prop where
  named : ∀ child ∈ children, child.parentId = some parentId
  childless : ∀ child ∈ children, child.childIds = []
  ready : ∀ child ∈ children, child.state.phase = .ready
  tokenless : ∀ child ∈ children, child.lockToken = none
  distinct : (children.map Job.id).Nodup
  apart : parentId ∉ children.map Job.id

namespace InMemoryJobQueueState

variable {s : InMemoryJobQueueState} {parentId : JobId} {child : Job} {children : List Job}
  {now : DateTime} {owner : JobId → Option Job} {duplicated : Finset JobId}

/-- One stored child: an owner absorbs it, it is attached, or it is admitted. -/
theorem board_storeFlowChild (s : InMemoryJobQueueState) (parentId : JobId) (now : DateTime)
    (owner : JobId → Option Job) (duplicated : Finset JobId) (child : Job)
    : (storeFlowChild parentId now owner duplicated s child).1.board
      = if (owner child.id).isSome then
          s.board
        else if child.id ∈ duplicated then
          s.board.attach parentId {child.id}
        else
          s.board.put child.id child.freshCard := by
  unfold storeFlowChild
  cases owned : owner child.id with
  | some existing => exact board_of_tables (emitDeduplicatedEventsLocked_tables _ _ _ _)
  | none =>
      simp only [Option.isSome_none, Bool.false_eq_true, if_false]
      by_cases member : child.id ∈ duplicated
      · simp only [if_pos member]
        cases found : s.jobs.get child.id with
        | none =>
            have unshown := board_cards_none.mpr found
            simp only
            ext1
            · funext other
              by_cases same : other = child.id
              · rw [same, unshown, Board.attach_cards_of_mem (Set.mem_singleton _), unshown]
                rfl
              · rw [Board.attach_cards_of_notMem (by simpa using same)]
            · rfl
            · rfl
        | some existing =>
            simp only
            rw [board_of_tables (emitDuplicatedEventLocked_tables _ _ _),
              board_of_tables (recordTerminalChildDependencyLocked_tables _ _ _), board_setJob]
            have sameId : existing.id = child.id := JobMap.get_id found
            ext1
            · funext other
              by_cases same : other = child.id
              · rw [Board.put_cards, Board.attach_cards_of_mem (by simpa using same), same,
                  if_pos sameId.symm, board_cards_of_get found]
                rfl
              · rw [Board.put_cards_ne (by rw [sameId]; exact same),
                  Board.attach_cards_of_notMem (by simpa using same)]
            · rfl
            · rfl
      · simp only [if_neg member]
        exact (board_insertSequenced s child now).1

/-- All stored children, by induction: the retained ones are attached and the others that no
owner absorbed are admitted.
-/
theorem board_storeFlowChildren (s : InMemoryJobQueueState)
    (distinct : (children.map Job.id).Nodup)
    : (storeFlowChildren parentId now owner duplicated s children).1.board
      = (s.board.attach parentId
          {id | id ∈ children.map Job.id ∧ owner id = none ∧ id ∈ duplicated}).putAll
          (children.filter (fun child => (owner child.id).isNone && child.id ∉ duplicated)) := by
  induction children generalizing s with
  | nil => simp [storeFlowChildren]
  | cons child rest ih =>
      rw [List.map_cons, List.nodup_cons] at distinct
      simp only [storeFlowChildren]
      rw [ih _ distinct.2, board_storeFlowChild]
      cases owned : owner child.id with
      | some existing =>
          rw [if_pos Option.isSome_some, List.filter_cons_of_neg (by simp [owned])]
          congr 2
          ext id
          simp only [Set.mem_ofPred_eq, List.map_cons, List.mem_cons]
          refine and_congr_left fun free => (or_iff_right ?_).symm
          rintro rfl
          rw [owned] at free
          cases free.1
      | none =>
          rw [if_neg (by simp)]
          by_cases member : child.id ∈ duplicated
          · rw [if_pos member, List.filter_cons_of_neg (by simp [member]), Board.attach_attach]
            congr 2
            ext id
            simp only [Set.mem_ofPred_eq, List.map_cons, List.mem_cons, Set.mem_union,
              Set.mem_singleton_iff, or_and_right]
            refine or_congr_left (iff_self_and.mpr ?_)
            rintro rfl
            exact ⟨owned, member⟩
          · rw [if_neg member, List.filter_cons_of_pos (by simp [owned, member]),
              Board.putAll_cons, Board.put_attach]
            · congr 3
              ext id
              simp only [Set.mem_ofPred_eq, List.map_cons, List.mem_cons]
              refine and_congr_left fun free => (or_iff_right ?_).symm
              rintro rfl
              exact member free.2
            · rintro ⟨again, _⟩
              exact distinct.1 again

end InMemoryJobQueueState

-----------------------------------------------------------------------------------------
-- Plans
-----------------------------------------------------------------------------------------

/-- What the deduplication loop over submitted children does to the board. `kept` are the
candidates that it stored by deduplication id.
-/
structure Board.Sifts (b : Board) (now : DateTime) (children : List Job)
    (kept : String → Option Job) (after : Board)
    : Prop where
  retimes : b.Retimes after
  owns : ∀ {key id}, after.Owns now key id → b.Owns now key id
  next : ∀ key, after.next key = (kept key).or (b.next key)
  nextFlows
    : ∀ key, after.nextFlows key = if (kept key).isSome then none else b.nextFlows key
  keptChild
    : ∀ {key child},
        kept key = some child
        → child ∈ children
          ∧ b.cards child.id = none
          ∧ b.RequiresNext now key child

/-- What an accepted submission does with its children: the board after the deduplication
loop, the candidates that were kept, the retained jobs that join the parent, the admitted
records, and the child list that the parent ends with.
-/
structure FlowPlan where
  sifted : Board
  kept : String → Option Job
  attached : Set JobId
  inserted : List Job
  childIds : List JobId

namespace FlowPlan

/-- A child of a submitted parent is superseded when a later child is kept under its key. -/
def Supersedes (p : FlowPlan) (b : Board) (now : DateTime) (submittedParent : Bool)
    (key : String) (child : Job)
    : Prop :=
  submittedParent = true ∧ b.RequiresNext now key child ∧ (p.kept key).isSome = true

/-- The board once the parent is written and the children are stored. -/
noncomputable def filled (p : FlowPlan) (parentId : JobId) (parentCard : Card) : Board :=
  ((p.sifted.put parentId parentCard).attach parentId p.attached).putAll p.inserted

/-- A submission checks the parent's release unless a kept child is still to materialize. -/
def Ends (p : FlowPlan) (parentId : JobId) (filled after : Board) : Prop :=
  (∃ key child, p.kept key = some child) ∧ after = filled
    ∨ (∀ key, p.kept key = none) ∧ filled.Released parentId after

end FlowPlan

/-- What the checks of a submission establish about its plan. -/
structure Board.Gathers (b : Board) (now : DateTime) (submittedParent : Bool)
    (parentId : JobId) (children : List Job) (existingIds : List JobId) (p : FlowPlan)
    : Prop where
  sifts : b.Sifts now children p.kept p.sifted
  records : ChildRecords parentId children
  inserted
    : ∀ child ∈ p.inserted,
        child ∈ children ∧ b.cards child.id = none ∧ ∀ key, p.kept key ≠ some child
  distinct : (p.inserted.map Job.id).Nodup
  attached
    : ∀ id ∈ p.attached,
        id ∈ children.map Job.id
        ∧ ∃ card,
            b.cards id = some card
            ∧ (∀ other, card.parentId = some other → other = parentId ∨ b.cards other = none)
            ∧ (id ∈ existingIds → card.parentId = some parentId)
  joins : ∀ child ∈ children, ∀ {card}, b.cards child.id = some card → child.id ∈ p.attached
  fresh : ∀ child ∈ children, b.cards child.id = none → child.id ∉ existingIds
  unowned
    : ∀ child ∈ p.inserted,
        ∀ key,
          activeDeduplicationId child now = some key
          → (∀ id, ¬ p.sifted.Owns now key id) ∨ p.Supersedes b now submittedParent key child
  singlyOwned
    : ∀ left ∈ p.inserted,
        ∀ right ∈ p.inserted,
          ∀ key,
            activeDeduplicationId left now = some key
            → activeDeduplicationId right now = some key
            → left.id = right.id
              ∨ p.Supersedes b now submittedParent key left
              ∨ p.Supersedes b now submittedParent key right
  uncarried
    : ∀ child ∈ p.inserted,
        ∀ key, child.repeatKey = some key → ∀ id, ¬ b.Carries key id
  singlyCarried
    : p.inserted.Pairwise (fun left right =>
        ∀ key, left.repeatKey = some key → right.repeatKey ≠ some key)
  listedFrom
    : ∀ id ∈ p.childIds,
        id ∈ existingIds
        ∨ id ∈ p.attached
        ∨ (∃ child ∈ p.inserted, child.id = id)
        ∨ ∃ key child, p.kept key = some child ∧ child.id = id
  listsExisting : ∀ id ∈ existingIds, id ∈ p.childIds
  listsAttached : ∀ id ∈ p.attached, id ∈ p.childIds
  listsKept : ∀ {key child}, p.kept key = some child → child.id ∈ p.childIds
  listsInserted
    : ∀ child ∈ p.inserted,
        child.id ∈ p.childIds ∨ ∃ key, p.Supersedes b now submittedParent key child
  listsOnce : existingIds.Nodup → p.childIds.Nodup

-----------------------------------------------------------------------------------------
-- The plan of a deduplication loop
-----------------------------------------------------------------------------------------

/-- A TTL does not touch the repeat series. -/
theorem Board.Retimes.carries {b after : Board} {key : String} {id : JobId}
    (retimes : b.Retimes after)
    : after.Carries key id ↔ b.Carries key id := by
  constructor
  · rintro ⟨card, found, carried⟩
    obtain ⟨old, shown, same⟩ := retimes.card_before found
    refine ⟨old, shown, ?_⟩
    have sameSeries := congrArg Card.seriesKey same
    exact sameSeries.symm.trans carried
  · rintro ⟨card, found, carried⟩
    obtain ⟨new, shown, same⟩ := retimes.card_after found
    refine ⟨new, shown, ?_⟩
    have sameSeries := congrArg Card.seriesKey same
    exact sameSeries.trans carried

namespace FlowDeduplication

variable {now : DateTime} {submittedParent : Bool} {duplicated : Finset JobId}
  {start d : FlowDeduplication} {done children : List Job} {child : Job} {key : String}
  {parentId : JobId} {existingIds childIds : List JobId}

/-- The candidates that the loop stored. -/
def kept (d : FlowDeduplication) (key : String) : Option Job :=
  if (d.deduplicatedNextChildById.lookup key).isSome then d.state.board.next key else none

/-- The plan of a submission that passed its checks. -/
def plan (d : FlowDeduplication) (duplicated : Finset JobId) (children : List Job)
    (childIds : List JobId)
    : FlowPlan :=
  { sifted := d.state.board
    kept := d.kept
    attached := {id | id ∈ duplicated}
    inserted := children.filter (d.insertsChild duplicated)
    childIds }

theorem Facts.kept_some (facts : Facts now submittedParent duplicated start done d)
    (kept : d.kept key = some child)
    : d.deduplicatedNextChildById.lookup key = some child.id
      ∧ child ∈ done
      ∧ start.state.board.RequiresNext now key child := by
  unfold FlowDeduplication.kept at kept
  split at kept
  · next recorded =>
      obtain ⟨id, known⟩ := Option.isSome_iff_exists.mp recorded
      obtain ⟨⟨other, member, rfl, _, stored, requires⟩, _⟩ := facts.kept known
      rw [stored] at kept
      obtain rfl := Option.some.inj kept
      exact ⟨known, member, requires⟩
  · cases kept

theorem Facts.kept_isSome (facts : Facts now submittedParent duplicated start done d)
    : (d.kept key).isSome = (d.deduplicatedNextChildById.lookup key).isSome := by
  unfold FlowDeduplication.kept
  cases recorded : d.deduplicatedNextChildById.lookup key with
  | none => rfl
  | some id =>
      obtain ⟨⟨_, _, _, _, stored, _⟩, _⟩ := facts.kept recorded
      rw [if_pos Option.isSome_some, stored]
      rfl

theorem Facts.keptNone (facts : Facts now submittedParent duplicated start done d)
    (unkept : d.kept key = none)
    : d.deduplicatedNextChildById.lookup key = none := by
  have same := facts.kept_isSome.symm.trans (congrArg Option.isSome unkept)
  simpa using same

/-- Every id that the loop recorded as kept is that of a kept child. -/
theorem Facts.kept_of_recorded (facts : Facts now submittedParent duplicated start done d)
    {id : JobId} (recorded : (d.deduplicatedNextChildren.lookup id).isSome = true)
    : ∃ key child, d.kept key = some child ∧ child.id = id := by
  obtain ⟨key, known⟩ := facts.keptIds recorded
  have isKept : (d.kept key).isSome = true := by
    rw [facts.kept_isSome, known]
    rfl
  obtain ⟨child, kept⟩ := Option.isSome_iff_exists.mp isKept
  have sameId := (facts.kept_some kept).1
  rw [known] at sameId
  exact ⟨key, child, kept, (Option.some.inj sameId).symm⟩

/-- The loop's effect on the board, whether or not it went through all children. -/
theorem Facts.sifts (facts : Facts now submittedParent duplicated start done d)
    (within : done ⊆ children)
    (absent : ∀ child ∈ done, child.id ∉ duplicated → start.state.board.cards child.id = none)
    : start.state.board.Sifts now children d.kept d.state.board where
  retimes := facts.retimes
  owns := facts.owns
  next := by
    intro key
    cases kept : d.kept key with
    | none => exact (facts.unkept (facts.keptNone kept)).1
    | some child =>
        obtain ⟨known, _⟩ := facts.kept_some kept
        unfold FlowDeduplication.kept at kept
        rw [known, if_pos Option.isSome_some] at kept
        exact kept
  nextFlows := by
    intro key
    cases kept : d.kept key with
    | none => exact (facts.unkept (facts.keptNone kept)).2
    | some child => exact (facts.kept (facts.kept_some kept).1).2.2.1
  keptChild := by
    intro key child kept
    obtain ⟨known, member, requires⟩ := facts.kept_some kept
    exact ⟨within member, absent child member (facts.kept known).2.1, requires⟩

/-- A child list of the parent: it keeps the existing ids and lists the children that no
owner absorbed for good, except superseded ones.
-/
structure Lists (now : DateTime) (submittedParent : Bool) (duplicated : Finset JobId)
    (start d : FlowDeduplication) (children : List Job) (existingIds childIds : List JobId)
    : Prop where
  listedFrom
    : ∀ id ∈ childIds,
        id ∈ existingIds
        ∨ ∃ child ∈ children,
            child.id = id
            ∧ (d.deduplicatedChildren.lookup id = none
              ∨ (d.deduplicatedNextChildren.lookup id).isSome = true)
  existing : ∀ id ∈ existingIds, id ∈ childIds
  lists
    : ∀ child ∈ children,
        d.deduplicatedChildren.lookup child.id = none
          ∨ (d.deduplicatedNextChildren.lookup child.id).isSome = true
        → child.id ∈ childIds
          ∨ d.insertsChild duplicated child = true
            ∧ ∃ key, Supersedes start d now submittedParent key child
  once : existingIds.Nodup → childIds.Nodup

theorem Facts.gathers (facts : Facts now submittedParent duplicated start children d)
    (records : ChildRecords parentId children)
    (attachable : start.state.Attachable parentId existingIds children duplicated)
    (uncarried
      : ∀ child ∈ children.filter (d.insertsChild duplicated),
          ∀ key, activeRepeatKey child = some key → ∀ id, ¬ d.state.board.Carries key id)
    (singly
      : (children.filter (d.insertsChild duplicated)).Pairwise (fun left right =>
          ∀ key, activeRepeatKey left = some key → activeRepeatKey right ≠ some key))
    (lists : Lists now submittedParent duplicated start d children existingIds childIds)
    : start.state.board.Gathers now submittedParent parentId children existingIds
        (d.plan duplicated children childIds) := by
  have absent {child : Job} (member : child ∈ children) (apart : child.id ∉ duplicated)
      : start.state.board.cards child.id = none := by
    cases shown : start.state.board.cards child.id with
    | none => rfl
    | some card => exact absurd ((attachable.retained child member).mpr ⟨card, shown⟩) apart
  have insertedIff {child : Job}
      : child ∈ children.filter (d.insertsChild duplicated)
        ↔ child ∈ children
          ∧ child.id ∉ duplicated
          ∧ d.deduplicatedChildren.lookup child.id = none
          ∧ d.deduplicatedNextChildren.lookup child.id = none := by
    rw [List.mem_filter, insertsChild_iff]
  have series {child : Job} (member : child ∈ children)
      : activeRepeatKey child = child.repeatKey := by
    have alive : child.state.isTerminal = false := by
      rw [← JobState.phase_isTerminal, records.ready child member]
      rfl
    simp [activeRepeatKey, alive]
  have supersedes {key : String} {child : Job}
      (superseded : Supersedes start d now submittedParent key child)
      : (d.plan duplicated children childIds).Supersedes start.state.board now submittedParent key
          child :=
    ⟨superseded.1, superseded.2.1, facts.kept_isSome.trans superseded.2.2⟩
  have attachedFree {id : JobId} (member : id ∈ duplicated)
      : d.deduplicatedChildren.lookup id = none := by
    by_contra some
    exact (facts.coalesced (by simpa [Option.isSome_iff_ne_none] using some)).2 member
  exact {
    sifts := facts.sifts (List.Subset.refl _) (fun child => absent)
    records
    inserted := by
      intro child member
      obtain ⟨inChildren, apart, _, unkept⟩ := insertedIff.mp member
      refine ⟨inChildren, absent inChildren apart, ?_⟩
      intro key kept
      have recorded := (facts.kept (facts.kept_some kept).1).2.2.2
      rw [unkept] at recorded
      cases recorded
    distinct := records.distinct.sublist (List.filter_sublist.map Job.id)
    attached := by
      intro id member
      have submitted := attachable.submitted id member
      obtain ⟨child, inChildren, rfl⟩ := List.mem_map.mp submitted
      obtain ⟨card, shown⟩ := (attachable.retained child inChildren).mp member
      exact ⟨submitted, card, shown, fun other => attachable.free child inChildren card other shown,
        attachable.listed child inChildren card shown⟩
    joins := fun child member _ shown => (attachable.retained child member).mpr ⟨_, shown⟩
    fresh := attachable.fresh
    unowned := by
      intro child member key active
      obtain ⟨inChildren, inserts⟩ := List.mem_filter.mp member
      rcases facts.fresh child inChildren inserts key active with ⟨nobody, _⟩ | superseded
      · exact .inl nobody
      · exact .inr (supersedes superseded)
    singlyOwned := by
      intro left leftMember right rightMember key leftKey rightKey
      obtain ⟨leftIn, leftInserts⟩ := List.mem_filter.mp leftMember
      obtain ⟨rightIn, rightInserts⟩ := List.mem_filter.mp rightMember
      exact (facts.distinct left leftIn right rightIn leftInserts rightInserts key leftKey
        rightKey).imp_right (.imp supersedes supersedes)
    uncarried := by
      intro child member key own id carries
      rw [← series (insertedIff.mp member).1] at own
      exact uncarried child member key own id (facts.retimes.carries.mpr carries)
    singlyCarried := by
      refine singly.imp_of_mem ?_
      intro left right leftMember rightMember apart key leftKey rightKey
      rw [← series (insertedIff.mp leftMember).1] at leftKey
      rw [← series (insertedIff.mp rightMember).1] at rightKey
      exact apart key leftKey rightKey
    listedFrom := by
      intro id member
      rcases lists.listedFrom id member with existing | ⟨child, inChildren, rfl, free | recorded⟩
      · exact .inl existing
      · by_cases attached : child.id ∈ duplicated
        · exact .inr (.inl attached)
        · cases recorded : d.deduplicatedNextChildren.lookup child.id with
          | none =>
              exact .inr (.inr (.inl
                ⟨child, insertedIff.mpr ⟨inChildren, attached, free, recorded⟩, rfl⟩))
          | some owner => exact .inr (.inr (.inr (facts.kept_of_recorded (by rw [recorded]; rfl))))
      · exact .inr (.inr (.inr (facts.kept_of_recorded recorded)))
    listsExisting := lists.existing
    listsAttached := by
      intro id member
      obtain ⟨child, inChildren, rfl⟩ := List.mem_map.mp (attachable.submitted id member)
      rcases lists.lists child inChildren (.inl (attachedFree member)) with listed | ⟨inserts, _⟩
      · exact listed
      · exact absurd member (insertsChild_iff.mp inserts).1
    listsKept := by
      intro key child kept
      obtain ⟨known, inChildren, _⟩ := facts.kept_some kept
      have recorded := (facts.kept known).2.2.2
      rcases lists.lists child inChildren (.inr recorded) with listed | ⟨inserts, _⟩
      · exact listed
      · rw [(insertsChild_iff.mp inserts).2.2] at recorded
        cases recorded
    listsInserted := by
      intro child member
      obtain ⟨inChildren, _, free, _⟩ := insertedIff.mp member
      rcases lists.lists child inChildren (.inl free) with listed | ⟨_, key, superseded⟩
      · exact .inl listed
      · exact .inr ⟨key, supersedes superseded⟩
    listsOnce := lists.once
  }

-----------------------------------------------------------------------------------------
-- Child lists
-----------------------------------------------------------------------------------------

/-- Appending ids adds exactly those of the children, by induction on them. -/
theorem mem_appendChildIds {ids : List JobId} {children : List Job} {id : JobId}
    : id ∈ appendChildIds ids children ↔ id ∈ ids ∨ id ∈ children.map Job.id := by
  unfold appendChildIds
  induction children generalizing ids with
  | nil => simp
  | cons child rest ih =>
      rw [List.foldl_cons, ih, List.map_cons, List.mem_cons, ← or_assoc]
      refine or_congr_left ?_
      split
      · next listed =>
          exact ⟨.inl, fun either => either.elim (·) (fun same => same ▸ listed)⟩
      · simp

/-- No id is appended twice, by induction on the children. -/
theorem nodup_appendChildIds {ids : List JobId} (distinct : ids.Nodup) (children : List Job)
    : (appendChildIds ids children).Nodup := by
  unfold appendChildIds
  induction children generalizing ids with
  | nil => exact distinct
  | cons child rest ih =>
      rw [List.foldl_cons]
      refine ih ?_
      split
      · exact distinct
      · next unlisted => exact distinct.append (List.nodup_singleton _) (by simpa using unlisted)

/-- The loop only drops ids from the list of a submitted parent. -/
theorem addChild_childIds (d : FlowDeduplication) (find : Find) (now : DateTime)
    (submittedParent : Bool) (duplicated : Finset JobId) (child : Job)
    : (d.addChild find now submittedParent duplicated child).1.childIds.Sublist d.childIds := by
  unfold addChild
  split
  · exact .refl _
  · split
    · exact .refl _
    · split
      · split
        · split
          · exact .refl _
          · simp only [keepNext]
            split
            · exact List.filter_sublist
            · exact .refl _
        · exact .refl _
      · split
        · exact .refl _
        · exact .refl _

/-- The whole loop only drops ids, by induction on the children. -/
theorem addChildren_childIds (d : FlowDeduplication) (find : Find) (now : DateTime)
    (submittedParent : Bool) (duplicated : Finset JobId) (children : List Job)
    : (d.addChildren find now submittedParent duplicated children).1.childIds.Sublist
        d.childIds := by
  induction children generalizing d with
  | nil => exact .refl _
  | cons child rest ih =>
      have first := addChild_childIds d find now submittedParent duplicated child
      unfold addChildren
      split
      · next outcome =>
          rw [outcome] at first
          exact first
      · next outcome =>
          rw [outcome] at first
          exact (ih _).trans first

/-- The child list of a parent that is already retained. -/
theorem lists_retained
    : Lists now false duplicated start d children existingIds
        (appendChildIds existingIds (children.filter d.listsChild)) := by
  have listsIff {child : Job}
      : d.listsChild child = true
        ↔ d.deduplicatedChildren.lookup child.id = none
          ∨ (d.deduplicatedNextChildren.lookup child.id).isSome = true := by
    unfold listsChild
    cases d.deduplicatedChildren.lookup child.id <;>
      cases d.deduplicatedNextChildren.lookup child.id <;> simp
  refine ⟨?_, fun id existing => mem_appendChildIds.mpr (.inl existing), ?_,
    fun distinct => nodup_appendChildIds distinct _⟩
  · intro id member
    rcases mem_appendChildIds.mp member with existing | listed
    · exact .inl existing
    · obtain ⟨child, inFilter, rfl⟩ := List.mem_map.mp listed
      obtain ⟨inChildren, lists⟩ := List.mem_filter.mp inFilter
      exact .inr ⟨child, inChildren, rfl, listsIff.mp lists⟩
  · intro child member lists
    refine .inl (mem_appendChildIds.mpr (.inr ?_))
    exact List.mem_map_of_mem (List.mem_filter.mpr ⟨member, listsIff.mpr lists⟩)

/-- The child list of a parent that is itself submitted. -/
theorem Facts.lists_submitted (facts : Facts now true duplicated start children d)
    (distinct : (children.map Job.id).Nodup) (all : start.childIds = children.map Job.id)
    (drops : d.childIds.Sublist start.childIds)
    : Lists now true duplicated start d children []
        (d.childIds.filter (fun childId => (d.deduplicatedChildren.lookup childId).isNone)) := by
  refine ⟨?_, by simp, ?_, fun _ => ?_⟩
  · intro id member
    obtain ⟨listed, free⟩ := List.mem_filter.mp member
    have submitted := facts.listed id listed
    rw [all] at submitted
    obtain ⟨child, inChildren, rfl⟩ := List.mem_map.mp submitted
    exact .inr ⟨child, inChildren, rfl, .inl (Option.isNone_iff_eq_none.mp free)⟩
  · intro child member lists
    have free : d.deduplicatedChildren.lookup child.id = none := by
      rcases lists with free | recorded
      · exact free
      · exact facts.apart rfl recorded
    by_cases listed : child.id ∈ d.childIds
    · exact .inl (List.mem_filter.mpr ⟨listed, by rw [free]; rfl⟩)
    · have submitted : child.id ∈ start.childIds := by
        rw [all]
        exact List.mem_map_of_mem member
      obtain ⟨other, inChildren, sameId, inserts, superseded⟩ :=
        facts.dropped child.id submitted listed
      obtain rfl := List.inj_on_of_nodup_map distinct inChildren member sameId
      exact .inr ⟨inserts, superseded⟩
  · rw [← all] at distinct
    exact (distinct.sublist drops).filter _

-----------------------------------------------------------------------------------------
-- The end of an accepted submission
-----------------------------------------------------------------------------------------

theorem Facts.owner_eq_none (facts : Facts now submittedParent duplicated start done d)
    {id : JobId}
    : d.owner submittedParent id = none
      ↔ d.deduplicatedChildren.lookup id = none ∧ d.deduplicatedNextChildren.lookup id = none := by
  unfold owner
  cases static : submittedParent with
  | true => simp
  | false =>
      refine ⟨fun free => ⟨free, ?_⟩, fun free => free.1⟩
      by_contra some
      have recorded : (d.deduplicatedNextChildren.lookup id).isSome = true := by
        simpa [Option.isSome_iff_ne_none] using some
      have absorbed := facts.absorbed static recorded
      rw [if_neg (by simp)] at free
      rw [free] at absorbed
      cases absorbed

/-- Storing the children fills in the plan. -/
theorem Facts.filled (facts : Facts now submittedParent duplicated start children d)
    (childIds : List JobId) (submitted : ∀ id ∈ duplicated, id ∈ children.map Job.id)
    (distinct : (children.map Job.id).Nodup) {s : InMemoryJobQueueState} {parentCard : Card}
    (written : s.board = d.state.board.put parentId parentCard) (time : DateTime)
    : (InMemoryJobQueueState.storeFlowChildren parentId time (d.owner submittedParent) duplicated s
        children).1.board
      = (d.plan duplicated children childIds).filled parentId parentCard := by
  rw [InMemoryJobQueueState.board_storeFlowChildren s distinct, written]
  unfold FlowPlan.filled plan
  congr 1
  · congr 1
    ext id
    simp only [Set.mem_ofPred_eq]
    refine ⟨fun stored => stored.2.2, fun member => ⟨submitted id member, ?_, member⟩⟩
    refine facts.owner_eq_none.mpr ⟨?_, ?_⟩
    · by_contra recorded
      exact (facts.coalesced (by simpa [Option.isSome_iff_ne_none] using recorded)).2 member
    · by_contra recorded
      obtain ⟨key, known⟩ := facts.keptIds
        (by simpa [Option.isSome_iff_ne_none] using recorded)
      exact (facts.kept known).2.1 member
  · refine List.filter_congr ?_
    intro child _
    rw [Bool.eq_iff_iff, insertsChild_iff, Bool.and_eq_true, Option.isNone_iff_eq_none,
      facts.owner_eq_none, decide_eq_true_iff]
    exact and_comm

/-- The parent's release is checked exactly when no child was kept for later. -/
theorem Facts.ends (facts : Facts now submittedParent duplicated start done d)
    (children : List Job) (childIds : List JobId) (s : InMemoryJobQueueState) (parentId : JobId) (time : DateTime)
    : (d.plan duplicated children childIds).Ends parentId s.board
        (s.releaseUnlessNext d parentId time).board := by
  unfold InMemoryJobQueueState.releaseUnlessNext
  split
  · next idle =>
      refine .inr ⟨?_, InMemoryJobQueueState.released_releaseParentIfReadyLocked s parentId time⟩
      intro key
      by_contra some
      obtain ⟨child, kept⟩ := Option.ne_none_iff_exists'.mp some
      have recorded := (facts.kept (facts.kept_some kept).1).2.2.2
      rw [AList.lookup_isSome, AList.mem_keys, List.isEmpty_iff.mp idle] at recorded
      simp at recorded
  · next waits =>
      refine .inl ⟨?_, rfl⟩
      obtain ⟨id, member⟩ := List.exists_mem_of_ne_nil _ (mt List.isEmpty_iff.mpr waits)
      obtain ⟨key, child, kept, _⟩ :=
        facts.kept_of_recorded (AList.lookup_isSome.mpr (AList.mem_keys.mpr member))
      exact ⟨key, child, kept⟩

end FlowDeduplication

-----------------------------------------------------------------------------------------
-- Candidates beside active owners
-----------------------------------------------------------------------------------------

namespace Board

/-- The job has not finished and did not release the deduplication id. -/
def Anchors (b : Board) (key : String) (id : JobId) : Prop :=
  ∃ card, b.cards id = some card ∧ card.phase.isTerminal = false ∧ card.ownerKey = some key

/-- A job or a flow is kept for the end of an owner of the deduplication id. -/
def Keeps (b : Board) (key : String) : Prop :=
  (∃ job, b.next key = some job) ∨ ∃ flow, b.nextFlows key = some flow

/-- What is kept was kept before, or waits for an unfinished owner. -/
def KeepsBeside (b after : Board) : Prop :=
  ∀ key, after.Keeps key → b.Keeps key ∨ ∃ id, b.Anchors key id

variable {b after : Board} {key : String} {id ownerId : JobId} {now : DateTime}

theorem keeps_of_subset
    (next : ∀ {key job}, after.next key = some job → b.next key = some job)
    (nextFlows : ∀ {key flow}, after.nextFlows key = some flow → b.nextFlows key = some flow)
    (keeps : after.Keeps key)
    : b.Keeps key := by
  rcases keeps with ⟨job, stored⟩ | ⟨flow, stored⟩
  · exact .inl ⟨job, next stored⟩
  · exact .inr ⟨flow, nextFlows stored⟩

theorem KeepsBeside.refl (b : Board) : b.KeepsBeside b := fun _ => .inl

/-- A deduplication loop leaves all owners. -/
theorem Retimes.anchors (retimes : b.Retimes after)
    (anchors : b.Anchors key id)
    : after.Anchors key id := by
  obtain ⟨card, found, alive, own⟩ := anchors
  obtain ⟨new, shown, same⟩ := retimes.card_after found
  have phase : new.phase = card.phase := by
    have equal := congrArg Card.phase same
    exact equal
  exact ⟨new, shown, phase ▸ alive, (congrArg Card.ownerKey same).trans own⟩

/-- An owner owns its deduplication id until it releases it. -/
theorem anchors_of_owns {card : Card} (found : b.cards ownerId = some card)
    (active : card.phase = .active) (owns : b.Owns now key ownerId)
    : b.Anchors key ownerId := by
  obtain ⟨held, shown, owned⟩ := owns
  rw [found] at shown
  obtain rfl := Option.some.inj shown
  refine ⟨card, found, by rw [active]; rfl, ?_⟩
  unfold Card.ownedKey at owned
  split at owned
  · cases owned
  · split at owned
    · cases owned
    · exact owned

/-- A deduplication loop keeps a child only beside an active owner. -/
theorem Sifts.keepsBeside {children : List Job} {kept : String → Option Job}
    (sifts : b.Sifts now children kept after)
    : b.KeepsBeside after := by
  intro key keeps
  cases stored : kept key with
  | some child =>
      obtain ⟨_, _, ownerId, card, found, active, owns⟩ := (sifts.keptChild stored).2.2
      exact .inr ⟨ownerId, anchors_of_owns found active owns⟩
  | none =>
      refine .inl ?_
      unfold Keeps at keeps ⊢
      rw [sifts.next key, sifts.nextFlows key, stored] at keeps
      exact keeps

/-- A duplicate that is kept beside its owner. -/
theorem Coalesces.keepsBeside {keepsJob : Job → Prop} {keepsFlow : JobFlow → Prop}
    (coalesces : b.Coalesces key ownerId keepsJob keepsFlow after)
    (jobs : ∀ job, keepsJob job → b.Anchors key ownerId)
    (flows : ∀ flow, keepsFlow flow → b.Anchors key ownerId)
    : b.KeepsBeside after := by
  have kept {job : Option Job} {flow : Option JobFlow} (anchors : b.Anchors key ownerId)
      : b.KeepsBeside ((b.keep key job flow).expire ownerId none) := by
    intro other keeps
    by_cases same : other = key
    · exact .inr ⟨ownerId, same ▸ anchors⟩
    · unfold Keeps at keeps ⊢
      simp only [expire_next, expire_nextFlows, keep, Function.update_of_ne same] at keeps
      exact .inl keeps
  cases coalesces with
  | ignored => exact .refl b
  | keptJob allowed => exact kept (jobs _ allowed)
  | keptFlow allowed => exact kept (flows _ allowed)
  | extended expiresAt => exact fun _ => .inl

end Board

theorem FlowPlan.Ends.settles {p : FlowPlan} {parentId : JobId} {filled after : Board}
    (ends : p.Ends parentId filled after)
    : filled.Settles after := by
  rcases ends with ⟨_, rfl⟩ | ⟨_, released⟩
  · exact .refl _
  · exact released.settles

/-- What follows the deduplication loop keeps nothing more. -/
theorem FlowPlan.Ends.keeps {p : FlowPlan} {parentId : JobId} {parentCard : Card} {after : Board}
    {key : String} (ends : p.Ends parentId (p.filled parentId parentCard) after)
    (keeps : after.Keeps key)
    : p.sifted.Keeps key := by
  have stored := Board.keeps_of_subset ends.settles.next ends.settles.nextFlows keeps
  unfold Board.Keeps FlowPlan.filled at stored
  rw [Board.putAll_next, Board.putAll_nextFlows] at stored
  exact stored

end Lane
