import Lane.Board.Symmetry

/-! The links of what enters in groups: the children of a submission below its parent, and the
candidates that enter at the end of an owner.
-/

namespace Lane

namespace Board

variable {b after : Board} {id other childId parentId : JobId} {card : Card} {job : Job}
  {now : DateTime}

-----------------------------------------------------------------------------------------
-- Filled plans
-----------------------------------------------------------------------------------------

/-- The parent that a plan is filled in under: it was retained with the plan's existing list,
or it is new, and then only children of the plan may name it already.
-/
inductive PlanParent (b : Board) (parentId : JobId) (existingIds : List JobId) (p : FlowPlan)
    (parentCard : Card)
    : Prop
  | retained {old : Card} (found : b.cards parentId = some old)
    (listed : old.childIds = existingIds) (named : parentCard.parentId = old.parentId)
  | submitted (absent : b.cards parentId = none) (childless : existingIds = [])
    (parentless : parentCard.parentId = none) (unlisted : ∀ other, ¬ b.Lists other parentId)
    (named : ∀ other, b.Names other parentId → other ∈ p.attached)

section Filled

variable {submitted : Bool} {children : List Job} {existingIds : List JobId} {p : FlowPlan}
  {parentCard : Card}

/-- A plan links its parent with the children that are attached or inserted. -/
def PlanLinks (p : FlowPlan) (parentId id above : JobId) : Prop :=
  above = parentId ∧ (id ∈ p.attached ∨ ∃ child ∈ p.inserted, child.id = id)

/-- A plan whose parent lists every inserted child, and whose inserted ids nobody else lists
and only attached children name.
-/
structure PlanApart (b : Board) (parentId : JobId) (existingIds : List JobId) (p : FlowPlan)
    (parentCard : Card)
    : Prop where
  parent : b.PlanParent parentId existingIds p parentCard
  children : parentCard.childIds = p.childIds
  listsInserted : ∀ child ∈ p.inserted, child.id ∈ p.childIds
  unlisted : ∀ child ∈ p.inserted, ∀ other, b.Lists other child.id → other = parentId
  unnamed : ∀ child ∈ p.inserted, ∀ other, b.Names other child.id → other ∈ p.attached

theorem Gathers.retained_before
    (gathers : b.Gathers now submitted parentId children existingIds p)
    (retained : (p.filled parentId parentCard).Retained id)
    : id = parentId ∨ b.Retained id ∨ ∃ child ∈ p.inserted, child.id = id := by
  obtain ⟨card, found⟩ := retained
  rcases gathers.card_before found with
    ⟨same, _⟩ | ⟨old, shown, _⟩ | ⟨child, inserted, same, _⟩
  · exact .inl same
  · exact .inr (.inl (gathers.sifts.retimes.keepsLinks.retained ⟨old, shown⟩))
  · exact .inr (.inr ⟨child, inserted, same⟩)

/-- The kept children are not among those that a plan stores. -/
theorem Gathers.kept_absent
    (gathers : b.Gathers now submitted parentId children existingIds p) {key : String}
    {child : Job} (kept : p.kept key = some child)
    : ¬ (p.filled parentId parentCard).Retained child.id := by
  intro retained
  obtain ⟨member, absent, _⟩ := gathers.sifts.keptChild kept
  rcases gathers.retained_before retained with same | before | ⟨other, inserted, same⟩
  · exact gathers.records.apart (same ▸ List.mem_map_of_mem member)
  · exact not_retained_of_absent absent before
  · obtain ⟨otherMember, _, unkept⟩ := gathers.inserted other inserted
    have equal := List.inj_on_of_nodup_map gathers.records.distinct otherMember member same
    exact unkept key (equal ▸ kept)

/-- A job names the parent of the plan, or the parent that it named before. -/
theorem PlanApart.names_before (apart : b.PlanApart parentId existingIds p parentCard)
    (gathers : b.Gathers now submitted parentId children existingIds p)
    (names : (p.filled parentId parentCard).Names id other)
    (retained : (p.filled parentId parentCard).Retained other)
    : PlanLinks p parentId id other ∨ b.Names id other ∧ b.Retained other := by
  have before (old : b.Names id other) (unattached : id ∉ p.attached) : b.Retained other := by
    rcases gathers.retained_before retained with rfl | was | ⟨child, inserted, rfl⟩
    · cases apart.parent with
      | retained found => exact ⟨_, found⟩
      | submitted _ _ _ _ named => exact absurd (named id old) unattached
    · exact was
    · exact absurd (apart.unnamed child inserted id old) unattached
  obtain ⟨card, found, named⟩ := names
  rcases gathers.card_before found with
    ⟨rfl, rfl⟩ | ⟨old, shown, _, ⟨unattached, rfl⟩ | ⟨attached, rfl⟩⟩ | ⟨child, inserted, rfl, rfl⟩
  · cases apart.parent with
    | retained shown _ sameParent =>
        have old : b.Names id other := ⟨_, shown, sameParent ▸ named⟩
        exact .inr ⟨old, before old gathers.parent_apart.1⟩
    | submitted _ _ parentless =>
        rw [parentless] at named
        cases named
  · have old := gathers.sifts.retimes.keepsLinks.names ⟨_, shown, named⟩
    exact .inr ⟨old, before old unattached⟩
  · exact .inl ⟨(Option.some.inj named).symm, .inl attached⟩
  · have toParent := gathers.records.named child (gathers.inserted child inserted).1
    exact .inl ⟨Option.some.inj (named.symm.trans toParent), .inr ⟨child, inserted, rfl⟩⟩

/-- A job lists children of the plan, or what it listed before. -/
theorem PlanApart.lists_before (apart : b.PlanApart parentId existingIds p parentCard)
    (gathers : b.Gathers now submitted parentId children existingIds p)
    (lists : (p.filled parentId parentCard).Lists other id)
    (retained : (p.filled parentId parentCard).Retained id)
    : PlanLinks p parentId id other ∨ b.Lists other id ∧ b.Retained id := by
  obtain ⟨card, found, listed⟩ := lists
  have elsewhere (old : b.Lists other id) (different : other ≠ parentId) : b.Retained id := by
    rcases gathers.retained_before retained with rfl | was | ⟨child, inserted, rfl⟩
    · cases apart.parent with
      | retained found => exact ⟨_, found⟩
      | submitted _ _ _ unlisted => exact absurd old (unlisted other)
    · exact was
    · exact absurd (apart.unlisted child inserted other old) different
  rcases gathers.card_before found with
    ⟨rfl, rfl⟩ | ⟨old, shown, different, ⟨_, rfl⟩ | ⟨_, rfl⟩⟩ | ⟨child, inserted, rfl, rfl⟩
  · rw [apart.children] at listed
    rcases gathers.listedFrom id listed with
      existing | attached | inserted | ⟨key, child, kept, rfl⟩
    · cases apart.parent with
      | retained shown sameChildren =>
          have old : b.Lists other id := ⟨_, shown, sameChildren ▸ existing⟩
          rcases gathers.retained_before retained with rfl | was | inserted
          · exact .inr ⟨old, _, shown⟩
          · exact .inr ⟨old, was⟩
          · exact .inl ⟨rfl, .inr inserted⟩
      | submitted _ childless =>
          rw [childless] at existing
          cases existing
    · exact .inl ⟨rfl, .inl attached⟩
    · exact .inl ⟨rfl, .inr inserted⟩
    · exact absurd retained (gathers.kept_absent kept)
  · have before := gathers.sifts.retimes.keepsLinks.lists ⟨_, shown, listed⟩
    exact .inr ⟨before, elsewhere before different⟩
  · have before := gathers.sifts.retimes.keepsLinks.lists ⟨_, shown, listed⟩
    exact .inr ⟨before, elsewhere before different⟩
  · rw [show child.freshCard.childIds = [] from
      gathers.records.childless child (gathers.inserted child inserted).1] at listed
    cases listed

/-- Links of a plan are recorded at both ends. -/
theorem PlanApart.links (apart : b.PlanApart parentId existingIds p parentCard)
    (gathers : b.Gathers now submitted parentId children existingIds p)
    (links : PlanLinks p parentId id other)
    : (p.filled parentId parentCard).Names id other
      ∧ (p.filled parentId parentCard).Lists other id := by
  obtain ⟨rfl, attached | ⟨child, inserted, rfl⟩⟩ := links
  · obtain ⟨member, card, found, _⟩ := gathers.attached id attached
    obtain ⟨sifted, shown, _⟩ := gathers.sifts.retimes.card_after found
    have different : id ≠ other := by
      rintro rfl
      exact gathers.records.apart member
    refine ⟨?_, _, gathers.parent_card, apart.children ▸ gathers.listsAttached id attached⟩
    rcases gathers.card_after shown different with ⟨unattached, _⟩ | ⟨_, new⟩
    · exact absurd attached unattached
    · exact ⟨_, new, rfl⟩
  · have member := (gathers.inserted child inserted).1
    refine ⟨⟨_, gathers.inserted_card inserted, gathers.records.named child member⟩, ?_⟩
    exact ⟨_, gathers.parent_card, apart.children ▸ apart.listsInserted child inserted⟩

/-- A job that lists a child lists it in the filled plan as well. -/
theorem PlanApart.stillLists (apart : b.PlanApart parentId existingIds p parentCard)
    (gathers : b.Gathers now submitted parentId children existingIds p)
    (lists : b.Lists other id)
    : (p.filled parentId parentCard).Lists other id := by
  obtain ⟨card, found, listed⟩ := lists
  by_cases isParent : other = parentId
  · subst isParent
    refine ⟨_, gathers.parent_card, ?_⟩
    cases apart.parent with
    | retained shown sameChildren =>
        rw [found] at shown
        obtain rfl := Option.some.inj shown
        rw [apart.children]
        exact gathers.listsExisting id (sameChildren ▸ listed)
    | submitted absent =>
        rw [found] at absent
        cases absent
  · obtain ⟨sifted, shown, same⟩ := gathers.sifts.retimes.card_after found
    have sameChildren : sifted.childIds = card.childIds := by
      have equal := congrArg Card.childIds same
      exact equal
    rcases gathers.card_after shown isParent with ⟨_, new⟩ | ⟨_, new⟩
    · exact ⟨_, new, sameChildren ▸ listed⟩
    · exact ⟨_, new, sameChildren ▸ listed⟩

/-- A job names the parent that it named before, unless it joins the parent of the plan. -/
theorem PlanApart.stillNames (apart : b.PlanApart parentId existingIds p parentCard)
    (gathers : b.Gathers now submitted parentId children existingIds p)
    (lists : (p.filled parentId parentCard).Lists other id) (names : b.Names id other)
    : (p.filled parentId parentCard).Names id other := by
  obtain ⟨card, found, named⟩ := names
  by_cases isParent : id = parentId
  · subst isParent
    refine ⟨_, gathers.parent_card, ?_⟩
    cases apart.parent with
    | retained shown _ sameParent =>
        rw [found] at shown
        obtain rfl := Option.some.inj shown
        exact sameParent.trans named
    | submitted absent =>
        rw [found] at absent
        cases absent
  · obtain ⟨sifted, shown, same⟩ := gathers.sifts.retimes.card_after found
    have sameParent : sifted.parentId = card.parentId := by
      have equal := congrArg Card.parentId same
      exact equal
    rcases gathers.card_after shown isParent with ⟨_, new⟩ | ⟨attached, new⟩
    · exact ⟨_, new, sameParent.trans named⟩
    · refine ⟨_, new, ?_⟩
      -- The parent that the child leaves is not retained, so it lists nobody now either.
      obtain ⟨_, _, known, free, _⟩ := gathers.attached id attached
      rw [found] at known
      obtain rfl := Option.some.inj known
      rcases free other named with rfl | absent
      · rfl
      · obtain ⟨holder, here, listed⟩ := lists
        rcases gathers.card_before here with
          ⟨rfl, _⟩ | ⟨old, was, _⟩ | ⟨child, inserted, _, rfl⟩
        · rfl
        · have gone := gathers.sifts.retimes.cards_none.mpr absent
          rw [was] at gone
          cases gone
        · rw [show child.freshCard.childIds = [] from
            gathers.records.childless child (gathers.inserted child inserted).1] at listed
          cases listed

/-- Links still agree once a plan is filled in. -/
theorem Linked.filled (linked : b.Linked)
    (gathers : b.Gathers now submitted parentId children existingIds p)
    (apart : b.PlanApart parentId existingIds p parentCard)
    : (p.filled parentId parentCard).Linked where
  symmetric :=
    linked.symmetric.relink (fun link => (apart.links gathers link).1)
      (fun link _ => (apart.links gathers link).2) (apart.names_before gathers)
      (apart.lists_before gathers) (fun _ _ lists => apart.stillLists gathers lists)
      (fun lists _ names => apart.stillNames gathers lists names)
  next stored := by
    rw [filled_next] at stored
    exact (linked.sifts gathers.records gathers.sifts).next stored
  nextFlows stored := by
    rw [filled_nextFlows] at stored
    exact (linked.sifts gathers.records gathers.sifts).nextFlows stored

end Filled

-----------------------------------------------------------------------------------------
-- What enters at the end of an owner
-----------------------------------------------------------------------------------------

/-- A prepared flow is linked within itself, and its parent names nobody. -/
structure FlowLinks (flow : JobFlow) : Prop where
  parentless : flow.parent.parentId = none
  listed : flow.parent.childIds = flow.children.map Job.id
  named : ∀ child ∈ flow.children, child.parentId = some flow.parent.id ∧ child.childIds = []
  distinct : ((flow.parent :: flow.children).map Job.id).Nodup

theorem Linked.flowLinks (linked : b.Linked) {key : String} {stored : JobFlow}
    (kept : b.nextFlows key = some stored)
    : FlowLinks (prepareDeduplicatedNextFlow stored now) := by
  obtain ⟨parentless, distinct⟩ := linked.nextFlows kept
  have sameChildren
      : (prepareDeduplicatedNextFlow stored now).children.map Job.id
        = stored.children.map Job.id := by
    simp [prepareDeduplicatedNextFlow, Function.comp_def, prepareDeduplicatedNextJob]
  refine ⟨?_, ?_, ?_, ?_⟩
  · rw [← parentless]
    unfold prepareDeduplicatedNextFlow
    simp only
    split <;> rfl
  · rw [sameChildren]
    unfold prepareDeduplicatedNextFlow
    simp only
    split <;> rfl
  · intro child member
    obtain ⟨old, _, rfl⟩ := List.mem_map.mp member
    exact ⟨by rw [InMemoryJobQueueState.prepareDeduplicatedNextFlow_parent_id], rfl⟩
  · rw [List.map_cons, InMemoryJobQueueState.prepareDeduplicatedNextFlow_parent_id, sameChildren,
      ← List.map_cons]
    exact distinct

/-- The job that is kept for an owner's end enters below the parent that it was kept for. -/
theorem nextKeepLastJob_links (owner candidate : Job) (count : Option Nat) (now : DateTime)
    : (nextKeepLastJob owner candidate count now).id = candidate.id
      ∧ (nextKeepLastJob owner candidate count now).parentId = candidate.parentId
      ∧ (nextKeepLastJob owner candidate count now).childIds = candidate.childIds := by
  unfold nextKeepLastJob
  simp only
  split <;> exact ⟨rfl, rfl, rfl⟩

section Admitted

variable {owner : Job} {admitted : List Job}

/-- An admitted job has the card of its record. -/
theorem OwnerEnds.admitted_card (linked : b.Linked) (ends : b.OwnerEnds owner now admitted after)
    (member : job ∈ admitted)
    : after.cards job.id = some job.freshCard := by
  cases ends with
  | keyless => cases member
  | dropped => cases member
  | job own stored counted prepared absent =>
      obtain rfl := List.mem_singleton.mp member
      rw [keep_cards, put_cards_self]
  | flow own kept prepared absent =>
      subst prepared
      rw [keep_cards]
      exact putAll_cards_of_nodup (linked.flowLinks kept).distinct member

/-- An admitted job lists exactly the admitted jobs that name it. -/
theorem OwnerEnds.lists_admitted (linked : b.Linked)
    (ends : b.OwnerEnds owner now admitted after) (member : job ∈ admitted)
    : childId ∈ job.childIds
      ↔ ∃ child ∈ admitted, child.id = childId ∧ child.parentId = some job.id := by
  cases ends with
  | keyless => cases member
  | dropped => cases member
  | @job key candidate _ count own stored counted prepared absent =>
      obtain rfl := List.mem_singleton.mp member
      obtain ⟨sameId, sameParent, sameChildren⟩ :=
        nextKeepLastJob_links owner candidate count now
      obtain ⟨notSelf, childless⟩ := linked.next stored
      rw [prepared, sameChildren, childless]
      simp [sameId, sameParent, notSelf]
  | @flow key stored _ own kept prepared absent =>
      subst prepared
      have links : FlowLinks (prepareDeduplicatedNextFlow stored now) := linked.flowLinks kept
      rcases List.mem_cons.mp member with rfl | isChild
      · rw [links.listed, List.mem_map]
        constructor
        · rintro ⟨child, inFlow, rfl⟩
          exact ⟨child, List.mem_cons_of_mem _ inFlow, rfl, (links.named child inFlow).1⟩
        · rintro ⟨child, inFlow, rfl, named⟩
          rcases List.mem_cons.mp inFlow with rfl | inChildren
          · rw [links.parentless] at named
            cases named
          · exact ⟨child, inChildren, rfl⟩
      · rw [(links.named job isChild).2]
        refine ⟨by simp, ?_⟩
        rintro ⟨child, inFlow, rfl, named⟩
        rcases List.mem_cons.mp inFlow with rfl | inChildren
        · rw [links.parentless] at named
          cases named
        · rw [(links.named child inChildren).1] at named
          have apart := (List.nodup_cons.mp links.distinct).1
          exact absurd (List.mem_map_of_mem isChild) (Option.some.inj named ▸ apart)

/-- The parent that an admitted job names lists it, if it is retained. -/
theorem OwnerEnds.listed_admitted (linked : b.Linked)
    (ends : b.OwnerEnds owner now admitted after) (member : job ∈ admitted)
    (named : job.parentId = some parentId) (retained : after.Retained parentId)
    : after.Lists parentId job.id := by
  obtain ⟨card, found⟩ := retained
  rcases ends.card_before found with ⟨old, shown, _⟩ | ⟨parent, inAdmitted, rfl, rfl, _⟩
  · cases ends with
    | keyless => cases member
    | dropped => cases member
    | job own stored counted prepared absent =>
        obtain rfl := List.mem_singleton.mp member
        have different : parentId ≠ job.id := by
          rintro rfl
          rw [shown] at absent
          cases absent
        rw [keep_cards, put_cards_ne different] at found
        have adopted : card.childIds = if job.id ∈ old.childIds then old.childIds
            else old.childIds ++ [job.id] := by
          simp only [adopt, named, addChild_cards, if_pos, shown, Option.map_some,
            Option.some.injEq] at found
          rw [← found]
          split <;> rfl
        refine ⟨card, by rw [keep_cards, put_cards_ne different, found], ?_⟩
        rw [adopted]
        split
        · next listed => exact listed
        · simp
    | flow own kept prepared absent =>
        subst prepared
        have links : FlowLinks (prepareDeduplicatedNextFlow _ now) := linked.flowLinks kept
        rcases List.mem_cons.mp member with rfl | isChild
        · rw [links.parentless] at named
          cases named
        · rw [(links.named job isChild).1] at named
          obtain rfl := Option.some.inj named
          rw [absent _ List.mem_cons_self] at shown
          cases shown
  · refine ⟨_, found, ?_⟩
    exact (ends.lists_admitted linked inAdmitted).mpr ⟨job, member, rfl, named⟩

/-- Links still agree at the end of an owner, when only the parent of an admitted job lists its
id and nobody names it.
-/
theorem Linked.ownerEnds (linked : b.Linked) (ends : b.OwnerEnds owner now admitted after)
    (unlisted : ∀ job ∈ admitted, ∀ other, b.Lists other job.id → job.parentId = some other)
    (unnamed : ∀ job ∈ admitted, ∀ other, ¬ b.Names other job.id)
    : after.Linked where
  symmetric := by
    have retained_before {id : JobId} (retained : after.Retained id)
        : b.Retained id ∨ ∃ job ∈ admitted, job.id = id := by
      obtain ⟨card, found⟩ := retained
      rcases ends.card_before found with ⟨old, shown, _⟩ | ⟨job, member, same, _⟩
      · exact .inl ⟨old, shown⟩
      · exact .inr ⟨job, member, same⟩
    have names_before {id above : JobId} (names : after.Names id above)
        (retained : after.Retained above)
        : (∃ job ∈ admitted, job.id = id ∧ job.parentId = some above)
          ∨ b.Names id above ∧ b.Retained above := by
      rcases ends.names names with before | entered
      · rcases retained_before retained with was | ⟨job, member, rfl⟩
        · exact .inr ⟨before, was⟩
        · exact absurd before (unnamed job member id)
      · exact .inl entered
    have lists_before {id above : JobId} (lists : after.Lists above id)
        (retained : after.Retained id)
        : (∃ job ∈ admitted, job.id = id ∧ job.parentId = some above)
          ∨ b.Lists above id ∧ b.Retained id := by
      have old (before : b.Lists above id)
          : (∃ job ∈ admitted, job.id = id ∧ job.parentId = some above)
            ∨ b.Lists above id ∧ b.Retained id := by
        rcases retained_before retained with was | ⟨job, member, rfl⟩
        · exact .inr ⟨before, was⟩
        · exact .inl ⟨job, member, rfl, unlisted job member above before⟩
      obtain ⟨card, found, listed⟩ := lists
      rcases ends.card_before found with
        ⟨was, shown, rfl | ⟨next, member, named, _, rfl⟩⟩ | ⟨parent, member, rfl, rfl, _⟩
      · exact old ⟨_, shown, listed⟩
      · rcases List.mem_append.mp listed with before | isNext
        · exact old ⟨was, shown, before⟩
        · exact .inl ⟨next, member, (List.mem_singleton.mp isNext).symm, named⟩
      · exact .inl ((ends.lists_admitted linked member).mp listed)
    refine linked.symmetric.relink ?_ ?_ names_before lists_before ?_ ?_
    · rintro id above ⟨job, member, rfl, named⟩
      exact ⟨_, ends.admitted_card linked member, named⟩
    · rintro id above ⟨job, member, rfl, named⟩ retained
      exact ends.listed_admitted linked member named retained
    · rintro id above _ _ ⟨card, found, listed⟩
      obtain ⟨_, shown, more, rfl⟩ := ends.card_after found
      exact ⟨_, shown, List.mem_append_left more listed⟩
    · rintro id above _ _ ⟨card, found, named⟩
      obtain ⟨_, shown, more, rfl⟩ := ends.card_after found
      exact ⟨_, shown, named⟩
  next stored := linked.next (ends.kept.1 stored)
  nextFlows stored := linked.nextFlows (ends.kept.2 stored)

end Admitted

end Board

end Lane
