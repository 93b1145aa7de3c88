import Lane.Board.Changes

/-! How the links between parents and children change: which parents jobs name and which
children they list after each change of the board.
-/

namespace Lane

namespace Board

variable {b after : Board} {id above childId parentId : JobId} {job : Job} {now : DateTime}

-----------------------------------------------------------------------------------------
-- Parents that jobs name
-----------------------------------------------------------------------------------------

theorem Retimes.names (retimes : b.Retimes after) (names : after.Names id above)
    : b.Names id above := by
  obtain ⟨card, found, named⟩ := names
  obtain ⟨old, shown, same⟩ := retimes.card_before found
  exact ⟨old, shown, (congrArg Card.parentId same).symm.trans named⟩

/-- A record that is put on the board names its own parent. -/
theorem put_names (names : (b.put job.id job.freshCard).Names id above)
    : id = job.id ∧ job.parentId = some above ∨ b.Names id above := by
  obtain ⟨card, found, named⟩ := names
  rw [put_cards] at found
  split at found
  · next same =>
      obtain rfl := Option.some.inj found
      exact .inl ⟨same, named⟩
  · exact .inr ⟨card, found, named⟩

/-- A submitted record that enters names nobody. -/
theorem enter_names {replaced : Option JobId} (admits : b.Admits now replaced job)
    (names : (b.enter replaced job).Names id above)
    : b.Names id above := by
  obtain ⟨card, found, named⟩ := names
  rcases enter_card_before found with ⟨_, rfl⟩ | ⟨_, _, shown⟩
  · rw [show job.freshCard.parentId = none from admits.parentless] at named
    cases named
  · exact ⟨card, shown, named⟩

theorem detached_names (names : ((b.unlist parentId childId).orphan childId).Names id above)
    : id ≠ childId ∧ b.Names id above := by
  obtain ⟨card, found, named⟩ := names
  obtain ⟨old, shown, rfl⟩ := detached_card_before found
  dsimp only at named
  split at named
  · cases named
  · next different => exact ⟨different, old, shown, named⟩

/-- Filling a plan links its children to the parent. -/
theorem Gathers.names {submitted : Bool} {children : List Job} {existingIds : List JobId}
    {p : FlowPlan} {parentCard : Card}
    (gathers : b.Gathers now submitted parentId children existingIds p)
    (names : (p.filled parentId parentCard).Names id above)
    : b.Names id above
      ∨ id ∈ children.map Job.id ∧ above = parentId
      ∨ id = parentId ∧ parentCard.parentId = some above := by
  obtain ⟨card, found, named⟩ := names
  rcases gathers.card_before found with
    ⟨same, rfl⟩ | ⟨old, shown, _, ⟨_, rfl⟩ | ⟨attached, rfl⟩⟩ | ⟨child, inserted, rfl, rfl⟩
  · exact .inr (.inr ⟨same, named⟩)
  · exact .inl (gathers.sifts.retimes.names ⟨_, shown, named⟩)
  · exact .inr (.inl ⟨(gathers.attached id attached).1, (Option.some.inj named).symm⟩)
  · have submittedChild := (gathers.inserted child inserted).1
    have toParent := gathers.records.named child submittedChild
    refine .inr (.inl ⟨List.mem_map_of_mem submittedChild, ?_⟩)
    exact Option.some.inj (named.symm.trans toParent)

/-- The jobs that an owner's end admits name the parents that their records do. -/
theorem OwnerEnds.names {owner : Job} {admitted : List Job}
    (ends : b.OwnerEnds owner now admitted after) (names : after.Names id above)
    : b.Names id above ∨ ∃ job ∈ admitted, job.id = id ∧ job.parentId = some above := by
  obtain ⟨card, found, named⟩ := names
  rcases ends.card_before found with ⟨old, shown, origin⟩ | ⟨job, member, same, rfl, _⟩
  · refine .inl ⟨old, shown, ?_⟩
    rcases origin with rfl | ⟨_, _, _, _, rfl⟩ <;> exact named
  · exact .inr ⟨job, member, same, named⟩

end Board

namespace InMemoryJobQueueState

variable {s : InMemoryJobQueueState} {after : Board} {find : Find} {job : Job} {now : DateTime}
  {id above : JobId}

theorem board_lists_iff {childId : JobId}
    : s.board.Lists id childId ↔ ∃ job, s.jobs.get id = some job ∧ childId ∈ job.childIds := by
  constructor
  · rintro ⟨card, shown, listed⟩
    obtain ⟨job, found, rfl⟩ := board_cards_some shown
    exact ⟨job, found, listed⟩
  · rintro ⟨job, found, listed⟩
    exact ⟨_, board_cards_of_get found, listed⟩

theorem Submits.names (submits : s.Submits job now after) (names : after.Names id above)
    : s.board.Names id above := by
  cases submits with
  | answered => exact names
  | admitted _ _ admits _ => exact Board.enter_names admits names
  | coalesced _ _ coalesces => exact coalesces.retimes.names names

theorem names_submitsEach {jobs : List Job} {t : InMemoryJobQueueState}
    (each : SubmitsEach find now s jobs t) (names : t.board.Names id above)
    : s.board.Names id above := by
  induction each with
  | nil => exact names
  | cons submits _ ih => exact submits.names (ih names)

end InMemoryJobQueueState

end Lane
