import Lane.Life.Life

/-! What every turn keeps: the lease, the end and the value of a life agree with its state, and
a token that no turn hands out does not come back.
-/

namespace Lane

namespace Life

/-- The lease, the end and the value of a life agree with its state. -/
structure Coherent (l : Life) : Prop where
  leased
    : l.state = .active
      → l.workerId.isSome = true ∧ l.lockToken.isSome = true ∧ l.leaseExpiresAt.isSome = true
  unleased : l.state ≠ .active → l.Unleased
  finished : l.finishedAt.isSome = l.state.isTerminal
  returned : l.returnValue.isSome = (l.state == .completed)

theorem Coherent.unfinished {l : Life} (coherent : l.Coherent)
    (alive : l.state.isTerminal = false)
    : l.finishedAt = none ∧ l.returnValue = none := by
  have finished := coherent.finished
  have returned := coherent.returned
  have incomplete : (l.state == .completed) = false := by
    cases state : l.state <;> simp_all [JobState.isTerminal]
  rw [alive, Option.isSome_eq_false_iff, Option.isNone_iff_eq_none] at finished
  rw [incomplete, Option.isSome_eq_false_iff, Option.isNone_iff_eq_none] at returned
  exact ⟨finished, returned⟩

/-- An unleased life that is neither active nor finished. -/
theorem coherent_idle {l : Life} (unleased : l.Unleased) (unfinished : l.finishedAt = none)
    (valueless : l.returnValue = none)
    (idle : l.state = .waiting ∨ l.state = .delayed ∨ l.state = .waitingChildren)
    : l.Coherent := by
  constructor <;> rcases idle with state | state | state <;>
    simp [state, unfinished, valueless, JobState.isTerminal, unleased]

theorem Cleared.unleased {l after : Life} (cleared : l.Cleared after) (coherent : l.Coherent)
    : after.Unleased := by
  rcases cleared.lease with unleased | ⟨idle, worker, token, expiry⟩
  · exact unleased
  · obtain ⟨noWorker, noToken, noExpiry⟩ := coherent.unleased idle
    exact ⟨worker.trans noWorker, token.trans noToken, expiry.trans noExpiry⟩

/-- A life that left its earlier lease and its earlier end is coherent while it is idle. -/
theorem Cleared.coherent {l after : Life} (cleared : l.Cleared after) (coherent : l.Coherent)
    (idle : after.state = .waiting ∨ after.state = .delayed ∨ after.state = .waitingChildren)
    : after.Coherent := by
  refine coherent_idle (cleared.unleased coherent) ?_ ?_ idle
  · rcases cleared.finishedAt with none | ⟨alive, same⟩
    · exact none
    · rw [same, (coherent.unfinished alive).1]
  · rcases cleared.returnValue with none | ⟨alive, same⟩
    · exact none
    · rw [same, (coherent.unfinished alive).2]

theorem Fresh.coherent {l : Life} (fresh : l.Fresh)
    (idle : l.state = .waiting ∨ l.state = .delayed ∨ l.state = .waitingChildren)
    : l.Coherent :=
  coherent_idle fresh.unleased fresh.unfinished fresh.valueless idle

end Life

namespace Lives

variable {o : Occasion} {a b : Lives} {marks : List Mark} {id : JobId} {l : Life}
  {after : Option Life}

theorem life_set (a : Lives) (id : JobId) (after : Option Life) (other : JobId)
    : (a.set id after).life other = if other = id then after else a.life other := by
  simp [set, Function.update_apply]

@[simp] theorem draw_life (a : Lives) : a.draw.life = a.life := rfl

/-- Every life satisfies the condition. -/
def Every (a : Lives) (good : Life → Prop) : Prop :=
  ∀ id l, a.life id = some l → good l

theorem Every.set {good : Life → Prop} (every : a.Every good)
    (written : ∀ l, after = some l → good l)
    : (a.set id after).Every good := by
  intro other l shown
  rw [life_set] at shown
  split at shown
  · exact written l shown
  · exact every other l shown

/-- A removed life is not asked for. -/
theorem Every.removed {good : Life → Prop} (every : a.Every good) : (a.set id none).Every good := by
  refine every.set (fun l same => ?_)
  cases same

theorem every_of_empty {good : Life → Prop} (empty : ∀ id, a.life id = none) : a.Every good := by
  intro id l shown
  rw [empty id] at shown
  cases shown

/-- Drawing a sequence number changes no life. -/
theorem Every.draw {good : Life → Prop} (every : a.Every good) : a.draw.Every good := every

end Lives

-----------------------------------------------------------------------------------------
-- Coherence
-----------------------------------------------------------------------------------------

variable {o : Occasion} {a b : Lives} {marks : List Mark}

/-- A turn keeps every life coherent, by cases on the turn. -/
theorem Turn.coherent (turn : Turn o a marks b) (every : a.Every Life.Coherent)
    : b.Every Life.Coherent := by
  have put {a : Lives} {id : JobId} {after : Life} (every : a.Every Life.Coherent)
      (coherent : after.Coherent)
      : (a.set id (some after)).Every Life.Coherent :=
    every.set (fun l same => Option.some.inj same ▸ coherent)
  cases turn with
  | claimed found waiting =>
      obtain ⟨unfinished, valueless⟩ := (every _ _ found).unfinished (by rw [waiting]; rfl)
      refine put every ⟨fun _ => ⟨rfl, rfl, rfl⟩, fun idle => absurd rfl idle, ?_, ?_⟩
      · rw [unfinished]
        rfl
      · rw [valueless]
        rfl
  | renewed found active =>
      have coherent := every _ _ found
      obtain ⟨worker, token, _⟩ := coherent.leased active
      exact put every ⟨fun _ => ⟨worker, token, rfl⟩, fun idle => absurd active idle,
        coherent.finished, coherent.returned⟩
  | completed found active unleased ended =>
      obtain ⟨state, finishedAt, returnValue⟩ := ended
      refine put every ⟨fun isActive => ?_, fun _ => unleased, ?_, ?_⟩
      · rw [state] at isActive
        cases isActive
      · rw [finishedAt, state]
        rfl
      · rw [returnValue, state]
        rfl
  | failed found alive unleased ended =>
      obtain ⟨state, finishedAt, returnValue⟩ := ended
      refine put every ⟨fun isActive => ?_, fun _ => unleased, ?_, ?_⟩
      · rw [state] at isActive
        cases isActive
      · rw [finishedAt, state]
        rfl
      · rw [returnValue, ((every _ _ found).unfinished alive).2, state]
        rfl
  | queued found _ cleared waiting =>
      exact put every.draw (cleared.coherent (every _ _ found) (.inl waiting))
  | released found _ cleared waiting =>
      exact put every (cleared.coherent (every _ _ found) (.inl waiting))
  | shelved found _ cleared shelved =>
      exact put every (cleared.coherent (every _ _ found) (.inr shelved))
  | reprioritized found =>
      have coherent := every _ _ found
      exact put every.draw
        ⟨coherent.leased, coherent.unleased, coherent.finished, coherent.returned⟩
  | reordered found =>
      have coherent := every _ _ found
      exact put every ⟨coherent.leased, coherent.unleased, coherent.finished, coherent.returned⟩
  | entered _ fresh waiting => exact put every.draw (fresh.coherent (.inl waiting))
  | planned _ fresh planned => exact put every (fresh.coherent (.inr planned))
  | dropped => exact every.removed
  | obliterated => exact Lives.every_of_empty (fun _ => rfl)

/-- Turns keep every life coherent, by induction on them. -/
theorem Turns.coherent (turns : Turns o a marks b) (every : a.Every Life.Coherent)
    : b.Every Life.Coherent := by
  induction turns with
  | nil => exact every
  | cons first _ ih => exact ih (first.coherent every)

-----------------------------------------------------------------------------------------
-- Tokens
-----------------------------------------------------------------------------------------

/-- The job does not hold the token. -/
def Lives.Bars (a : Lives) (id : JobId) (token : JobLockToken) : Prop :=
  ∀ l, a.life id = some l → l.lockToken ≠ some token

variable {id : JobId} {token : JobLockToken}

theorem Lives.Bars.set {other : JobId} {after : Option Life} (bars : a.Bars id token)
    (written : other = id → ∀ l, after = some l → l.lockToken ≠ some token)
    : (a.set other after).Bars id token := by
  intro l shown
  rw [Lives.life_set] at shown
  split at shown
  · next same => exact written same.symm l shown
  · exact bars l shown

theorem Life.Unleased.bars {l : Life} (unleased : l.Unleased) : l.lockToken ≠ some token := by
  rw [unleased.2.1]
  exact nofun

theorem Life.Cleared.bars {l after : Life} (cleared : l.Cleared after)
    (bars : l.lockToken ≠ some token)
    : after.lockToken ≠ some token := by
  rcases cleared.lease with unleased | ⟨_, _, same, _⟩
  · exact unleased.bars
  · rw [same]
    exact bars

/-- A token that a job does not hold and that is not handed out stays away from the job, by
cases on the turn.
-/
theorem Turn.bars (turn : Turn o a marks b) (bars : a.Bars id token) (spent : ¬ o.claims token)
    : b.Bars id token := by
  have put {a : Lives} {other : JobId} {after : Life} (bars : a.Bars id token)
      (written : other = id → after.lockToken ≠ some token)
      : (a.set other (some after)).Bars id token :=
    bars.set (fun same l stored => Option.some.inj stored ▸ written same)
  have drawn : a.draw.Bars id token := bars
  cases turn with
  | claimed _ _ claims =>
      refine put bars (fun _ held => spent ?_)
      rw [← Option.some.inj held]
      exact claims
  | @renewed other l _ found =>
      exact put bars (fun same => bars l (by rw [← same]; exact found))
  | completed _ _ unleased => exact put bars (fun _ => unleased.bars)
  | failed _ _ unleased => exact put bars (fun _ => unleased.bars)
  | queued found _ cleared => exact put drawn (fun same => cleared.bars (bars _ (same ▸ found)))
  | released found _ cleared => exact put bars (fun same => cleared.bars (bars _ (same ▸ found)))
  | shelved found _ cleared => exact put bars (fun same => cleared.bars (bars _ (same ▸ found)))
  | @reprioritized other l _ _ found =>
      exact put drawn (fun same => bars l (by rw [← same]; exact found))
  | @reordered other l _ _ found =>
      exact put bars (fun same => bars l (by rw [← same]; exact found))
  | entered _ fresh => exact put drawn (fun _ => fresh.unleased.bars)
  | planned _ fresh => exact put bars (fun _ => fresh.unleased.bars)
  | dropped =>
      refine bars.set (fun _ l shown => ?_)
      cases shown
  | obliterated =>
      intro l shown
      cases shown

theorem Turns.bars (turns : Turns o a marks b) (bars : a.Bars id token)
    (spent : ¬ o.claims token)
    : b.Bars id token := by
  induction turns with
  | nil => exact bars
  | cons first _ ih => exact ih (first.bars bars spent)

/-- The token of the life, if it has one, is one of those that were handed out. -/
def Life.Known (used : Set JobLockToken) (l : Life) : Prop :=
  ∀ token, l.lockToken = some token → token ∈ used

theorem Life.Unleased.known {used : Set JobLockToken} {l : Life} (unleased : l.Unleased)
    : l.Known used :=
  fun _ held => absurd held unleased.bars

theorem Life.Cleared.known {used : Set JobLockToken} {l after : Life}
    (cleared : l.Cleared after) (known : l.Known used)
    : after.Known used := by
  intro token held
  by_contra unknown
  exact cleared.bars (fun before => unknown (known token before)) held

/-- Jobs hold only tokens that were handed out, by cases on the turn. -/
theorem Turn.known (turn : Turn o a marks b) {used : Set JobLockToken}
    (every : a.Every (Life.Known used)) (claims : ∀ token, o.claims token → token ∈ used)
    : b.Every (Life.Known used) := by
  have put {a : Lives} {id : JobId} {after : Life} (every : a.Every (Life.Known used))
      (known : after.Known used)
      : (a.set id (some after)).Every (Life.Known used) :=
    every.set (fun l same => Option.some.inj same ▸ known)
  cases turn with
  | claimed _ _ claimed =>
      refine put every (fun token held => claims token ?_)
      rw [← Option.some.inj held]
      exact claimed
  | @renewed _ l _ found => exact put every (every _ l found)
  | completed _ _ unleased => exact put every unleased.known
  | failed _ _ unleased => exact put every unleased.known
  | queued found _ cleared => exact put every.draw (cleared.known (every _ _ found))
  | released found _ cleared => exact put every (cleared.known (every _ _ found))
  | shelved found _ cleared => exact put every (cleared.known (every _ _ found))
  | @reprioritized _ l _ _ found => exact put every.draw (every _ l found)
  | @reordered _ l _ _ found => exact put every (every _ l found)
  | entered _ fresh => exact put every.draw fresh.unleased.known
  | planned _ fresh => exact put every fresh.unleased.known
  | dropped => exact every.removed
  | obliterated => exact Lives.every_of_empty (fun _ => rfl)

theorem Turns.known (turns : Turns o a marks b) {used : Set JobLockToken}
    (every : a.Every (Life.Known used)) (claims : ∀ token, o.claims token → token ∈ used)
    : b.Every (Life.Known used) := by
  induction turns with
  | nil => exact every
  | cons first _ ih => exact ih (first.known every claims)

-----------------------------------------------------------------------------------------
-- Completions
-----------------------------------------------------------------------------------------

/-- The job is not completed, if it is retained at all. -/
def Lives.Incomplete (a : Lives) (id : JobId) : Prop :=
  ∀ l, a.life id = some l → l.state ≠ .completed

/-- Only the job that an operation completes becomes completed, by cases on the turn. -/
theorem Turn.incomplete (turn : Turn o a marks b) (incomplete : a.Incomplete id)
    (spared : ¬ o.completes id)
    : b.Incomplete id := by
  have put {a : Lives} {other : JobId} {after : Option Life} (incomplete : a.Incomplete id)
      (written : other = id → ∀ l, after = some l → l.state ≠ .completed)
      : (a.set other after).Incomplete id := by
    intro l shown
    rw [Lives.life_set] at shown
    split at shown
    · next same => exact written same.symm l shown
    · exact incomplete l shown
  have turned {a : Lives} {other : JobId} {after : Life} {state : JobState}
      (incomplete : a.Incomplete id) (reached : after.state = state) (idle : state ≠ .completed)
      : (a.set other (some after)).Incomplete id := by
    refine put incomplete (fun _ l same => ?_)
    obtain rfl := Option.some.inj same
    rw [reached]
    exact idle
  have drawn : a.draw.Incomplete id := incomplete
  cases turn with
  | claimed => exact turned incomplete rfl nofun
  | renewed _ active => exact turned incomplete active nofun
  | completed _ _ _ _ completes =>
      exact put incomplete (fun same => absurd (same ▸ completes) spared)
  | failed _ _ _ ended => exact turned incomplete ended.1 nofun
  | queued _ _ _ waiting => exact turned drawn waiting nofun
  | released _ _ _ waiting => exact turned incomplete waiting nofun
  | shelved _ _ _ shelved =>
      rcases shelved with delayed | waits
      · exact turned incomplete delayed nofun
      · exact turned incomplete waits nofun
  | reprioritized _ waiting => exact turned drawn waiting nofun
  | @reordered other l _ _ found =>
      refine put incomplete (fun same after written => ?_)
      obtain rfl := Option.some.inj written
      exact incomplete l (same ▸ found)
  | entered _ _ waiting => exact turned drawn waiting nofun
  | planned _ _ planned =>
      rcases planned with delayed | waits
      · exact turned incomplete delayed nofun
      · exact turned incomplete waits nofun
  | dropped => exact put incomplete (fun _ _ impossible => absurd impossible.symm nofun)
  | obliterated =>
      intro l shown
      cases shown

theorem Turns.incomplete (turns : Turns o a marks b) (incomplete : a.Incomplete id)
    (spared : ¬ o.completes id)
    : b.Incomplete id := by
  induction turns with
  | nil => exact incomplete
  | cons first _ ih => exact ih (first.incomplete incomplete spared)

end Lane
