import Lane.Board.Kept
import Lane.Library.KeyTable

/-! Changes of the board that bring in nobody: they move or drop cards and touch no key, no
link and no expiry. Most operations are of this kind.
-/

namespace Lane

/-- The cards agree on links, keys, expiry and failure policy. -/
structure Card.SameKeys (left right : Card) : Prop where
  parentId : left.parentId = right.parentId
  childIds : left.childIds = right.childIds
  repeatKey : left.repeatKey = right.repeatKey
  ownerKey : left.ownerKey = right.ownerKey
  deduplicationExpiresAt : left.deduplicationExpiresAt = right.deduplicationExpiresAt
  policy : left.policy = right.policy

theorem Card.SameKeys.refl (card : Card) : card.SameKeys card := ⟨rfl, rfl, rfl, rfl, rfl, rfl⟩

theorem Card.SameKeys.trans {left middle right : Card} (first : left.SameKeys middle)
    (second : middle.SameKeys right)
    : left.SameKeys right where
  parentId := first.parentId.trans second.parentId
  childIds := first.childIds.trans second.childIds
  repeatKey := first.repeatKey.trans second.repeatKey
  ownerKey := first.ownerKey.trans second.ownerKey
  deduplicationExpiresAt := first.deduplicationExpiresAt.trans second.deduplicationExpiresAt
  policy := first.policy.trans second.policy

theorem Card.moved_sameKeys (card : Card) (phase : Phase) : (card.moved phase).SameKeys card :=
  ⟨rfl, rfl, rfl, rfl, rfl, rfl⟩

namespace Board

/-- Every card that is left was there with the same keys, finished cards stayed as they
were, and no candidate was added.
-/
structure Settles (b after : Board) : Prop where
  card : ∀ {id card}, after.cards id = some card →
    ∃ old,
      b.cards id = some old
      ∧ card.SameKeys old
      ∧ (old.phase.isTerminal = true → card.phase = old.phase)
  next : ∀ {deduplicationId job},
    after.next deduplicationId = some job → b.next deduplicationId = some job
  nextFlows : ∀ {deduplicationId flow},
    after.nextFlows deduplicationId = some flow → b.nextFlows deduplicationId = some flow

variable {b middle after : Board} {id parentId : JobId} {card : Card} {phase : Phase}
  {ids : Set JobId}

theorem Settles.refl (b : Board) : b.Settles b where
  card found := ⟨_, found, .refl _, fun _ => rfl⟩
  next found := found
  nextFlows found := found

theorem Settles.trans (first : b.Settles middle) (second : middle.Settles after)
    : b.Settles after where
  card found := by
    obtain ⟨between, inMiddle, sameKeys, stays⟩ := second.card found
    obtain ⟨old, inBoard, oldKeys, oldStays⟩ := first.card inMiddle
    refine ⟨old, inBoard, sameKeys.trans oldKeys, ?_⟩
    intro terminal
    have same := oldStays terminal
    rw [stays (by rw [same]; exact terminal), same]
  next found := first.next (second.next found)
  nextFlows found := first.nextFlows (second.nextFlows found)

theorem Settles.of_eq (same : after = b) : b.Settles after := same ▸ .refl b

theorem Settles.without (b : Board) (ids : Set JobId) : b.Settles (b.without ids) where
  card found := ⟨_, (without_cards_some found).2, .refl _, fun _ => rfl⟩
  next found := found
  nextFlows found := found

/-- Moving a job that has not finished settles. -/
theorem Settles.move (phase : Phase) (unfinished : ¬ b.Finished id)
    : b.Settles (b.move id phase) where
  card := by
    intro other card found
    rw [move_cards] at found
    split at found
    · next same =>
        subst same
        obtain ⟨old, shown, rfl⟩ := Option.map_eq_some_iff.mp found
        refine ⟨old, shown, old.moved_sameKeys phase, ?_⟩
        intro terminal
        exact absurd ⟨old, shown, terminal⟩ unfinished
    · exact ⟨card, found, .refl card, fun _ => rfl⟩
  next found := found
  nextFlows found := found

theorem Unfinished.not_finished (unfinished : b.Unfinished id) : ¬ b.Finished id := by
  rintro ⟨card, found, terminal⟩
  obtain ⟨_, same, alive⟩ := unfinished
  rw [found] at same
  obtain rfl := Option.some.inj same
  rw [terminal] at alive
  cases alive

theorem Parked.unfinished (parked : b.Parked id) : b.Unfinished id := by
  obtain ⟨card, found, phase⟩ := parked
  exact ⟨card, found, by rw [phase]; rfl⟩

theorem Leased.unfinished {token : JobLockToken} (leased : b.Leased id token)
    : b.Unfinished id := by
  obtain ⟨card, found, active, _⟩ := leased
  exact ⟨card, found, by rw [active]; rfl⟩

theorem Pruned.settles (pruned : b.Pruned after) : b.Settles after := by
  obtain ⟨ids, _, rfl⟩ := pruned
  exact .without b ids

theorem parked_of_card (found : b.cards id = some card) (parked : card.phase = .parked)
    : b.Parked id :=
  ⟨card, found, parked⟩

theorem Released.settles (released : b.Released parentId after) : b.Settles after := by
  cases released with
  | kept => exact .refl b
  | deferred found parked => exact .move _ (parked_of_card found parked).unfinished.not_finished
  | resolved found parked => exact .move _ (parked_of_card found parked).unfinished.not_finished
  | failed found parked _ _ pruned =>
      exact (Settles.move _ (parked_of_card found parked).unfinished.not_finished).trans
        pruned.settles

theorem ParentSettled.settles {policy : FailurePolicy}
    (settled : b.ParentSettled parentId policy after)
    : b.Settles after := by
  cases policy with
  | deferParent =>
      rcases settled with ⟨_, rfl⟩ | ⟨unfinished, rfl⟩
      · exact .refl _
      · exact .move _ unfinished.not_finished
  | continueParent =>
      rcases settled with ⟨_, rfl⟩ | ⟨parked, rfl⟩
      · exact .refl _
      · exact .move _ parked.unfinished.not_finished
  | releaseDependency => exact Released.settles settled
  | failParent =>
      rcases settled with ⟨_, rfl⟩ | ⟨unfinished, pruned⟩
      · exact .refl _
      · exact (Settles.move _ unfinished.not_finished).trans pruned.settles

/-- Parents checked for their release one after the other. -/
inductive ReleasedEach : Board → List JobId → Board → Prop
  | nil (b : Board) : ReleasedEach b [] b
  | cons {b middle after : Board} {parentId : JobId} {rest : List JobId}
    (released : b.Released parentId middle) (later : ReleasedEach middle rest after)
    : ReleasedEach b (parentId :: rest) after

theorem ReleasedEach.settles {parentIds : List JobId}
    (released : ReleasedEach b parentIds after)
    : b.Settles after := by
  induction released with
  | nil b => exact .refl b
  | cons released _ ih => exact released.settles.trans ih

/-- A board that settles has no unfinished job that was not unfinished before. -/
theorem Settles.unfinished (settles : b.Settles after) (unfinished : after.Unfinished id)
    : b.Unfinished id := by
  obtain ⟨card, found, alive⟩ := unfinished
  obtain ⟨old, shown, _, stays⟩ := settles.card found
  refine ⟨old, shown, ?_⟩
  cases terminal : old.phase.isTerminal with
  | false => rfl
  | true =>
      rw [stays terminal, terminal] at alive
      cases alive

theorem Settles.names (settles : b.Settles after) (names : after.Names id parentId)
    : b.Names id parentId := by
  obtain ⟨card, found, named⟩ := names
  obtain ⟨old, shown, same, _⟩ := settles.card found
  exact ⟨old, shown, same.parentId ▸ named⟩

end Board

end Lane
