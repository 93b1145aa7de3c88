import Lane.Board.Links
import Lane.Library.TwoEndedLinks

/-! Links between retained jobs are recorded at both ends: a job names its parent exactly when
the parent lists it. What the queue brings in under an id that somebody still names or lists
would break this, so each change says which ids must be unlinked.
-/

namespace Lane

open TwoEndedLinks

namespace Board

/-- The job has a card. -/
def Retained (b : Board) (id : JobId) : Prop := ∃ card, b.cards id = some card

/-- Parents and children that are both retained agree on their link. -/
def Symmetric (b : Board) : Prop := Agree b.Retained b.Names b.Lists

/-- No retained job lists the id, and none names it as its parent. -/
def Unlinked (b : Board) (id : JobId) : Prop :=
  (∀ other, ¬ b.Lists other id) ∧ ∀ other, ¬ b.Names other id

/-- Links agree, and they will at the ends of the candidates that are kept: jobs are kept
without children and not below themselves, flows below nobody and with distinct ids.
-/
structure Linked (b : Board) : Prop where
  symmetric : b.Symmetric
  next : ∀ {key job}, b.next key = some job → job.parentId ≠ some job.id ∧ job.childIds = []
  nextFlows
    : ∀ {key flow},
        b.nextFlows key = some flow
        → flow.parent.parentId = none ∧ ((flow.parent :: flow.children).map Job.id).Nodup

variable {b after : Board} {id other childId parentId : JobId} {card : Card} {job : Job}
  {now : DateTime}

theorem linked_empty : empty.Linked where
  symmetric :=
    { listed := by
        rintro _ _ ⟨card, found, _⟩
        cases found
      named := by
        rintro _ _ ⟨card, found, _⟩
        cases found }
  next stored := by cases stored
  nextFlows stored := by cases stored

theorem Names.retained (names : b.Names id parentId) : b.Retained id := by
  obtain ⟨card, found, _⟩ := names
  exact ⟨card, found⟩

theorem Lists.retained (lists : b.Lists parentId childId) : b.Retained parentId := by
  obtain ⟨card, found, _⟩ := lists
  exact ⟨card, found⟩

theorem not_retained_of_absent (absent : b.cards id = none) : ¬ b.Retained id := by
  rintro ⟨card, found⟩
  rw [absent] at found
  cases found

-----------------------------------------------------------------------------------------
-- Boards with the same links
-----------------------------------------------------------------------------------------

/-- Every card was there before, with the same links. -/
def KeepsLinks (b after : Board) : Prop :=
  ∀ id card,
    after.cards id = some card
    → ∃ old,
        b.cards id = some old ∧ card.parentId = old.parentId ∧ card.childIds = old.childIds

theorem KeepsLinks.retained (keeps : b.KeepsLinks after) (retained : after.Retained id)
    : b.Retained id := by
  obtain ⟨card, found⟩ := retained
  obtain ⟨old, shown, _⟩ := keeps _ _ found
  exact ⟨old, shown⟩

theorem KeepsLinks.names (keeps : b.KeepsLinks after) (names : after.Names id parentId)
    : b.Names id parentId := by
  obtain ⟨card, found, named⟩ := names
  obtain ⟨old, shown, sameParent, _⟩ := keeps _ _ found
  exact ⟨old, shown, sameParent ▸ named⟩

theorem KeepsLinks.lists (keeps : b.KeepsLinks after) (lists : after.Lists parentId childId)
    : b.Lists parentId childId := by
  obtain ⟨card, found, listed⟩ := lists
  obtain ⟨old, shown, _, sameChildren⟩ := keeps _ _ found
  exact ⟨old, shown, sameChildren ▸ listed⟩

theorem KeepsLinks.symmetric (keeps : b.KeepsLinks after) (symmetric : b.Symmetric)
    : after.Symmetric := by
  refine symmetric.restrict keeps.retained keeps.names keeps.lists ?_ ?_
  · rintro childId parentId ⟨card, found⟩ ⟨old, shown, listed⟩
    obtain ⟨_, known, _, sameChildren⟩ := keeps _ _ found
    rw [shown] at known
    obtain rfl := Option.some.inj known
    exact ⟨card, found, sameChildren ▸ listed⟩
  · rintro id parentId ⟨card, found⟩ ⟨old, shown, named⟩
    obtain ⟨_, known, sameParent, _⟩ := keeps _ _ found
    rw [shown] at known
    obtain rfl := Option.some.inj known
    exact ⟨card, found, sameParent.trans named⟩

theorem KeepsLinks.unlinked (keeps : b.KeepsLinks after) (unlinked : b.Unlinked id)
    : after.Unlinked id :=
  ⟨fun other lists => unlinked.1 other (keeps.lists lists),
    fun other names => unlinked.2 other (keeps.names names)⟩

theorem Settles.keepsLinks (settles : b.Settles after) : b.KeepsLinks after := by
  intro id card found
  obtain ⟨old, shown, same, _⟩ := settles.card found
  exact ⟨old, shown, same.parentId, same.childIds⟩

theorem Retimes.keepsLinks (retimes : b.Retimes after) : b.KeepsLinks after := by
  intro id card found
  obtain ⟨old, shown, same⟩ := retimes.card_before found
  have sameParent := congrArg Card.parentId same
  have sameChildren := congrArg Card.childIds same
  exact ⟨old, shown, sameParent, sameChildren⟩

theorem keepsLinks_disown : b.KeepsLinks (b.disown other) := by
  intro id card found
  rw [disown_cards] at found
  split at found
  · next same =>
      obtain ⟨old, shown, rfl⟩ := Option.map_eq_some_iff.mp found
      exact ⟨old, same ▸ shown, rfl, rfl⟩
  · exact ⟨card, found, rfl, rfl⟩

/-- A card that is put with the links of the card it replaces. -/
theorem keepsLinks_put {old : Card} (found : b.cards id = some old)
    (sameParent : card.parentId = old.parentId) (sameChildren : card.childIds = old.childIds)
    : b.KeepsLinks (b.put id card) := by
  intro other written shown
  rw [put_cards] at shown
  split at shown
  · next same =>
      obtain rfl := Option.some.inj shown
      exact ⟨old, same ▸ found, sameParent, sameChildren⟩
  · exact ⟨written, shown, rfl, rfl⟩

theorem Linked.settles (linked : b.Linked) (settles : b.Settles after) : after.Linked where
  symmetric := settles.keepsLinks.symmetric linked.symmetric
  next stored := linked.next (settles.next stored)
  nextFlows stored := linked.nextFlows (settles.nextFlows stored)

theorem Linked.put (linked : b.Linked) (symmetric : (b.put id card).Symmetric)
    : (b.put id card).Linked :=
  ⟨symmetric, linked.next, linked.nextFlows⟩

-----------------------------------------------------------------------------------------
-- Single jobs
-----------------------------------------------------------------------------------------

/-- A job without links of its own is unlinked where links agree. -/
theorem Symmetric.unlinked (symmetric : b.Symmetric) (found : b.cards id = some card)
    (parentless : card.parentId = none) (childless : card.childIds = [])
    : b.Unlinked id := by
  constructor
  · intro other lists
    obtain ⟨held, shown, named⟩ := symmetric.named lists ⟨card, found⟩
    rw [found] at shown
    obtain rfl := Option.some.inj shown
    rw [parentless] at named
    cases named
  · intro other names
    obtain ⟨held, shown, listed⟩ := symmetric.listed names ⟨card, found⟩
    rw [found] at shown
    obtain rfl := Option.some.inj shown
    rw [childless] at listed
    cases listed

/-- A record that replaces another one gets an id that is unlinked anyway. -/
theorem Symmetric.unlinked_admits (symmetric : b.Symmetric) {replaced : Option JobId}
    (admits : b.Admits now replaced job) (free : b.cards job.id = none → b.Unlinked job.id)
    : b.Unlinked job.id := by
  rcases admits.absent with absent | same
  · exact free absent
  · obtain ⟨card, found, _, parentless, childless, _⟩ := admits.replacedFree same
    exact symmetric.unlinked found parentless childless

/-- A record without links is put under an unlinked id. -/
theorem Symmetric.put_fresh (symmetric : b.Symmetric) (unlinked : b.Unlinked job.id)
    (parentless : job.parentId = none) (childless : job.childIds = [])
    (before
      : ∀ {id card},
          after.cards id = some card
          → id = job.id ∧ card = job.freshCard ∨ id ≠ job.id ∧ b.cards id = some card)
    : after.Symmetric := by
  have names_before {id parentId : JobId} (names : after.Names id parentId)
      : id ≠ job.id ∧ b.Names id parentId := by
    obtain ⟨card, found, named⟩ := names
    rcases before found with ⟨_, rfl⟩ | ⟨different, shown⟩
    · rw [show job.freshCard.parentId = none from parentless] at named
      cases named
    · exact ⟨different, card, shown, named⟩
  have lists_before {childId parentId : JobId} (lists : after.Lists parentId childId)
      : parentId ≠ job.id ∧ b.Lists parentId childId := by
    obtain ⟨card, found, listed⟩ := lists
    rcases before found with ⟨_, rfl⟩ | ⟨different, shown⟩
    · rw [show job.freshCard.childIds = [] from childless] at listed
      cases listed
    · exact ⟨different, card, shown, listed⟩
  have stays {id : JobId} (retained : after.Retained id) (different : id ≠ job.id)
      : b.Retained id := by
    obtain ⟨card, found⟩ := retained
    rcases before found with ⟨same, _⟩ | ⟨_, shown⟩
    · exact absurd same different
    · exact ⟨card, shown⟩
  have same {id : JobId} {card old : Card} (found : after.cards id = some card)
      (different : id ≠ job.id) (shown : b.cards id = some old)
      : card = old := by
    rcases before found with ⟨isJob, _⟩ | ⟨_, known⟩
    · exact absurd isJob different
    · rw [shown] at known
      exact (Option.some.inj known).symm
  constructor
  · intro id parentId names retained
    obtain ⟨_, old⟩ := names_before names
    have different : parentId ≠ job.id := by
      rintro rfl
      exact unlinked.2 id old
    obtain ⟨card, shown, listed⟩ := symmetric.listed old (stays retained different)
    obtain ⟨new, found⟩ := retained
    exact ⟨new, found, same found different shown ▸ listed⟩
  · intro id parentId lists retained
    obtain ⟨_, old⟩ := lists_before lists
    have different : id ≠ job.id := by
      rintro rfl
      exact unlinked.1 parentId old
    obtain ⟨card, shown, named⟩ := symmetric.named old (stays retained different)
    obtain ⟨new, found⟩ := retained
    exact ⟨new, found, same found different shown ▸ named⟩

theorem Linked.enter (linked : b.Linked) {replaced : Option JobId}
    (admits : b.Admits now replaced job) (free : b.cards job.id = none → b.Unlinked job.id)
    : (b.enter replaced job).Linked where
  symmetric := by
    refine linked.symmetric.put_fresh (linked.symmetric.unlinked_admits admits free)
      admits.parentless admits.childless ?_
    intro id card found
    rcases enter_card_before found with entered | ⟨different, _, shown⟩
    · exact .inl entered
    · exact .inr ⟨different, shown⟩
  next := linked.next
  nextFlows := linked.nextFlows

/-- A child that is taken off its parent leaves no link behind. -/
theorem Linked.detached (linked : b.Linked) (names : b.Names childId parentId)
    : ((b.unlist parentId childId).orphan childId).Linked where
  symmetric := by
    have before {id : JobId} {card : Card}
        (found : ((b.unlist parentId childId).orphan childId).cards id = some card) :=
      detached_card_before found
    have retained {id : JobId}
        (retained : ((b.unlist parentId childId).orphan childId).Retained id)
        : b.Retained id := by
      obtain ⟨card, found⟩ := retained
      obtain ⟨old, shown, _⟩ := before found
      exact ⟨old, shown⟩
    constructor
    · intro id above named present
      obtain ⟨different, old⟩ := detached_names named
      obtain ⟨card, shown, listed⟩ := linked.symmetric.listed old (retained present)
      obtain ⟨new, found⟩ := present
      obtain ⟨known, same, rfl⟩ := before found
      rw [shown] at same
      obtain rfl := Option.some.inj same
      refine ⟨_, found, ?_⟩
      dsimp only
      split
      · simpa [different] using listed
      · exact listed
    · rintro id above ⟨card, found, listed⟩ present
      obtain ⟨old, shown, rfl⟩ := before found
      dsimp only at listed
      have wasListed : id ∈ old.childIds := by
        split at listed
        · exact (List.mem_filter.mp listed).1
        · exact listed
      obtain ⟨card, known, named⟩ :=
        linked.symmetric.named ⟨old, shown, wasListed⟩ (retained present)
      have different : id ≠ childId := by
        rintro rfl
        obtain ⟨held, alsoKnown, toParent⟩ := names
        rw [known] at alsoKnown
        obtain rfl := Option.some.inj alsoKnown
        rw [named] at toParent
        obtain rfl := Option.some.inj toParent
        rw [if_pos rfl] at listed
        simp at listed
      obtain ⟨new, after⟩ := present
      obtain ⟨_, same, rfl⟩ := before after
      rw [known] at same
      obtain rfl := Option.some.inj same
      exact ⟨_, after, by simpa [different] using named⟩
  next := linked.next
  nextFlows := linked.nextFlows

-----------------------------------------------------------------------------------------
-- Candidates that are kept
-----------------------------------------------------------------------------------------

theorem Linked.coalesces (linked : b.Linked) {key : String} {ownerId : JobId}
    {keepsJob : Job → Prop} {keepsFlow : JobFlow → Prop}
    (coalesces : b.Coalesces key ownerId keepsJob keepsFlow after)
    (jobs : ∀ job, keepsJob job → job.parentId ≠ some job.id ∧ job.childIds = [])
    (flows
      : ∀ flow,
          keepsFlow flow
          → flow.parent.parentId = none ∧ ((flow.parent :: flow.children).map Job.id).Nodup)
    : after.Linked := by
  refine ⟨coalesces.retimes.keepsLinks.symmetric linked.symmetric, ?_, ?_⟩
  · intro other kept stored
    cases coalesces with
    | ignored => exact linked.next stored
    | @keptJob job allowed =>
        simp only [expire_next, Board.keep, Function.update_apply] at stored
        split at stored
        · obtain rfl := Option.some.inj stored
          exact jobs job allowed
        · exact linked.next stored
    | keptFlow =>
        simp only [expire_next, Board.keep, Function.update_apply] at stored
        split at stored
        · cases stored
        · exact linked.next stored
    | extended => exact linked.next stored
  · intro other kept stored
    cases coalesces with
    | ignored => exact linked.nextFlows stored
    | keptJob =>
        simp only [expire_nextFlows, Board.keep, Function.update_apply] at stored
        split at stored
        · cases stored
        · exact linked.nextFlows stored
    | @keptFlow flow allowed =>
        simp only [expire_nextFlows, Board.keep, Function.update_apply] at stored
        split at stored
        · obtain rfl := Option.some.inj stored
          exact flows flow allowed
        · exact linked.nextFlows stored
    | extended => exact linked.nextFlows stored

/-- The children that a loop keeps name the parent that they were submitted with. -/
theorem Linked.sifts (linked : b.Linked) {children : List Job} {kept : String → Option Job}
    (records : ChildRecords parentId children) (sifts : b.Sifts now children kept after)
    : after.Linked where
  symmetric := sifts.retimes.keepsLinks.symmetric linked.symmetric
  next {key stored} found := by
    rw [sifts.next key] at found
    cases submitted : kept key with
    | none =>
        rw [submitted] at found
        exact linked.next found
    | some child =>
        rw [submitted] at found
        obtain rfl := Option.some.inj found
        have member := (sifts.keptChild submitted).1
        refine ⟨?_, records.childless child member⟩
        rw [records.named child member]
        intro same
        exact records.apart (Option.some.inj same ▸ List.mem_map_of_mem member)
  nextFlows {key stored} found := by
    rw [sifts.nextFlows key] at found
    split at found
    · cases found
    · exact linked.nextFlows found

end Board

end Lane
