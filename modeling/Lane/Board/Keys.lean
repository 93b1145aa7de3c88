import Lane.Board.Frames

/-! The two keys that a job may hold exclusively: its deduplication id while it owns it, and
its repeat key while it has not finished.
-/

namespace Lane

/-- The deduplication id that the job owns at `now`. -/
def Card.ownedKey (now : DateTime) (card : Card) : Option String :=
  if card.deduplicationExpiresAt.any (fun expiresAt => expiresAt ≤ now) then
    none
  else if card.phase.isTerminal && card.deduplicationExpiresAt.isNone then
    none
  else
    card.ownerKey

/-- The repeat series that the job carries on. -/
def Card.seriesKey (card : Card) : Option String :=
  if card.phase.isTerminal then none else card.repeatKey

/-- Owning a deduplication id is a fact of the card. -/
theorem ownsDeduplicationId_iff {released : Finset (String × JobId)}
    {deduplicationId : String} {now : DateTime} {job : Job}
    : ownsDeduplicationId released deduplicationId now job = true
      ↔ (job.card released).ownedKey now = some deduplicationId := by
  unfold ownsDeduplicationId activeDeduplicationId Card.ownedKey
  simp only [Job.card, JobState.phase_isTerminal]
  split
  · simp
  · split
    · simp
    · cases jobDeduplicationId job with
      | none => simp
      | some key =>
          by_cases same : key = deduplicationId
          · subst same
            simp [Option.filter]
          · simp only [Bool.and_eq_true, beq_iff_eq, Option.some.injEq, same, false_and,
              false_iff, Option.filter]
            split
            · simp [same]
            · simp

/-- Carrying on a repeat series is a fact of the card. -/
theorem activeRepeatKey_eq_seriesKey {released : Finset (String × JobId)} {job : Job}
    : activeRepeatKey job = (job.card released).seriesKey := by
  simp [activeRepeatKey, Card.seriesKey, Job.card]

namespace Board

/-- The job owns this deduplication id at `now`. -/
def Owns (b : Board) (now : DateTime) (deduplicationId : String) (id : JobId) : Prop :=
  KeyTable.Holds (Card.ownedKey now) b.cards deduplicationId id

/-- The job carries on this repeat series. -/
def Carries (b : Board) (repeatKey : String) (id : JobId) : Prop :=
  KeyTable.Holds Card.seriesKey b.cards repeatKey id

/-- Every deduplication id has at most one owner. -/
def OwnersUnique (b : Board) (now : DateTime) : Prop :=
  KeyTable.Unique (Card.ownedKey now) b.cards

/-- Every repeat series has at most one unfinished job. -/
def SeriesUnique (b : Board) : Prop :=
  KeyTable.Unique Card.seriesKey b.cards

variable {b after : Board} {now later : DateTime} {key : String} {id : JobId}

/-- A card that only finished owns nothing that it did not own before. -/
theorem ownedKey_of_sameKeys {old card : Card} (same : card.SameKeys old)
    (stays : old.phase.isTerminal = true → card.phase = old.phase)
    (owned : card.ownedKey now = some key)
    : old.ownedKey now = some key := by
  unfold Card.ownedKey at owned ⊢
  rw [same.deduplicationExpiresAt, same.ownerKey] at owned
  split at owned
  · cases owned
  · next unexpired =>
      rw [if_neg unexpired]
      split at owned
      · cases owned
      · next holds =>
          rw [if_neg]
          · exact owned
          · intro gone
            apply holds
            simp only [Bool.and_eq_true] at gone ⊢
            rw [stays gone.1]
            exact gone

/-- Ownership only ends with time, as TTLs run out. -/
theorem ownedKey_antitone {card : Card} (order : now ≤ later)
    (owned : card.ownedKey later = some key)
    : card.ownedKey now = some key := by
  unfold Card.ownedKey at owned ⊢
  split at owned
  · cases owned
  · next unexpired =>
      rw [if_neg]
      · exact owned
      · intro expired
        apply unexpired
        rw [Option.any_eq_true] at expired ⊢
        obtain ⟨expiresAt, known, passed⟩ := expired
        exact ⟨expiresAt, known, by simpa using le_trans (by simpa using passed) order⟩

/-- A card that only finished carries on no series that it did not carry on before. -/
theorem seriesKey_of_sameKeys {old card : Card} (same : card.SameKeys old)
    (stays : old.phase.isTerminal = true → card.phase = old.phase)
    (carried : card.seriesKey = some key)
    : old.seriesKey = some key := by
  unfold Card.seriesKey at carried ⊢
  split at carried
  · cases carried
  · next alive =>
      rw [if_neg]
      · rw [← same.repeatKey]
        exact carried
      · intro terminal
        exact alive (by rw [stays terminal]; exact terminal)

theorem Settles.owns (settles : b.Settles after) (owns : after.Owns now key id)
    : b.Owns now key id := by
  obtain ⟨card, found, owned⟩ := owns
  obtain ⟨old, shown, same, stays⟩ := settles.card found
  exact ⟨old, shown, ownedKey_of_sameKeys same stays owned⟩

theorem Settles.carries (settles : b.Settles after) (carries : after.Carries key id)
    : b.Carries key id := by
  obtain ⟨card, found, carried⟩ := carries
  obtain ⟨old, shown, same, stays⟩ := settles.card found
  exact ⟨old, shown, seriesKey_of_sameKeys same stays carried⟩

theorem OwnersUnique.settles (unique : b.OwnersUnique now) (settles : b.Settles after)
    : after.OwnersUnique now :=
  KeyTable.Unique.of_holds_subset unique (fun _ _ => settles.owns)

theorem OwnersUnique.of_le (unique : b.OwnersUnique now) (order : now ≤ later)
    : b.OwnersUnique later := by
  refine KeyTable.Unique.of_holds_subset unique ?_
  rintro key id ⟨card, found, owned⟩
  exact ⟨card, found, ownedKey_antitone order owned⟩

theorem SeriesUnique.settles (unique : b.SeriesUnique) (settles : b.Settles after)
    : after.SeriesUnique :=
  KeyTable.Unique.of_holds_subset unique (fun _ _ => settles.carries)

end Board

namespace InMemoryJobQueueState

variable {s : InMemoryJobQueueState} {find : Find} {job : Job} {now : DateTime}
  {key : String} {id : JobId}

/-- A found owner owns the deduplication id. -/
theorem owns_of_find
    (found
      : findActiveDeduplicationId find s.jobs s.releasedDeduplicationOwners key now = some job)
    : s.jobs.get job.id = some job ∧ s.board.Owns now key job.id := by
  obtain ⟨stored, owns⟩ := find.find_some found
  exact ⟨stored, _, board_cards_of_get stored, ownsDeduplicationId_iff.mp owns⟩

/-- Without a found owner nobody owns the deduplication id. -/
theorem not_owns_of_find
    (failed
      : findActiveDeduplicationId find s.jobs s.releasedDeduplicationOwners key now = none)
    (id : JobId)
    : ¬ s.board.Owns now key id := by
  rintro ⟨card, shown, owned⟩
  obtain ⟨job, stored, rfl⟩ := board_cards_some shown
  have refused := find.find_none failed stored
  rw [ownsDeduplicationId_iff.mpr owned] at refused
  cases refused

/-- A found series job carries on the series. -/
theorem carries_of_find (found : findActiveRepeatKey find s.jobs key = some job)
    : s.jobs.get job.id = some job ∧ s.board.Carries key job.id := by
  obtain ⟨stored, carries⟩ := find.find_some found
  refine ⟨stored, _, board_cards_of_get stored, ?_⟩
  rw [← activeRepeatKey_eq_seriesKey]
  simpa using carries

/-- Without a found series job nobody carries on the series. -/
theorem not_carries_of_find (failed : findActiveRepeatKey find s.jobs key = none) (id : JobId)
    : ¬ s.board.Carries key id := by
  rintro ⟨card, shown, carried⟩
  obtain ⟨job, stored, rfl⟩ := board_cards_some shown
  have refused := find.find_none failed stored
  rw [← activeRepeatKey_eq_seriesKey] at carried
  simp [carried] at refused

/-- Without another found owner nobody else owns the deduplication id. -/
theorem not_owns_of_findExcept {excluded : JobId}
    (failed
      : findActiveDeduplicationIdExcept find s.jobs s.releasedDeduplicationOwners key excluded now
        = none)
    (different : id ≠ excluded)
    : ¬ s.board.Owns now key id := by
  rintro ⟨card, shown, owned⟩
  obtain ⟨job, stored, rfl⟩ := board_cards_some shown
  have refused := find.find_none failed stored
  rw [ownsDeduplicationId_iff.mpr owned, JobMap.get_id stored] at refused
  simp [different] at refused

/-- Without another found series job nobody else carries on the series. -/
theorem not_carries_of_findExcept {excluded : JobId}
    (failed : findActiveRepeatKeyExcept find s.jobs key excluded = none)
    (different : id ≠ excluded)
    : ¬ s.board.Carries key id := by
  rintro ⟨card, shown, carried⟩
  obtain ⟨job, stored, rfl⟩ := board_cards_some shown
  have refused := find.find_none failed stored
  rw [← activeRepeatKey_eq_seriesKey] at carried
  rw [JobMap.get_id stored] at refused
  simp [different, carried] at refused

end InMemoryJobQueueState

end Lane
