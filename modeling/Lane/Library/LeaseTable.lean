import Mathlib.Data.List.Induction
import Mathlib.Logic.Function.Basic
import Mathlib.Order.Basic

/-! Leases that expire. A key is granted to one token until some time; its holder may renew or
release it before then, and it is revoked only afterwards. What a legal history leaves of a key is
what the last event about it says.
-/

namespace Lane

namespace LeaseTable

variable {κ τ θ : Type}

-----------------------------------------------------------------------------------------
-- Events
-----------------------------------------------------------------------------------------

/-- What happens to a lease, and when; a grant and a renewal say until when it runs. -/
inductive Event (κ τ : Type) (θ : Type := Int) where
  | grant (key : κ) (token : τ) (now expiry : θ)
  | renew (key : κ) (token : τ) (now expiry : θ)
  | release (key : κ) (token : τ) (now : θ)
  | revoke (key : κ) (now : θ)
deriving DecidableEq

namespace Event

/-- The key of an event. -/
def key : Event κ τ θ → κ
  | .grant key _ _ _ => key
  | .renew key _ _ _ => key
  | .release key _ _ => key
  | .revoke key _ => key

/-- The lease that an event leaves. -/
def leaves : Event κ τ θ → Option (τ × θ)
  | .grant _ token _ expiry => some (token, expiry)
  | .renew _ token _ expiry => some (token, expiry)
  | .release _ _ _ => none
  | .revoke _ _ => none

/-- The event is a grant. -/
def grants : Event κ τ θ → Bool
  | .grant _ _ _ _ => true
  | _ => false

/-- When the event grants a lease. -/
def grantTime : Event κ τ θ → Option θ
  | .grant _ _ now _ => some now
  | _ => none

theorem grantTime_eq_none {event : Event κ τ θ} (silent : event.grants = false)
    : event.grantTime = none := by
  cases event <;> first | rfl | cases silent

/-- The event is allowed to follow a lease of its key: the key is free, or its holder acts in time,
or its time is over.
-/
def Allowed [LE θ] [LT θ] (event : Event κ τ θ) (lease : Option (τ × θ)) : Prop :=
  match event with
  | .grant _ _ _ _ => lease = none
  | .renew _ token now _ => ∃ expiry, lease = some (token, expiry) ∧ now ≤ expiry
  | .release _ token now => ∃ expiry, lease = some (token, expiry) ∧ now ≤ expiry
  | .revoke _ now => ∃ token expiry, lease = some (token, expiry) ∧ expiry < now

end Event

end LeaseTable

-----------------------------------------------------------------------------------------
-- Tables
-----------------------------------------------------------------------------------------

/-- The leases that were not ended, each with its token and its time. -/
abbrev LeaseTable (κ τ : Type) (θ : Type := Int) := κ → Option (τ × θ)

namespace LeaseTable

variable {κ τ θ : Type} [DecidableEq κ]
variable {table : LeaseTable κ τ θ} {event : Event κ τ θ}
variable {events more : List (Event κ τ θ)} {key : κ}

/-- The table after an event. -/
def next (table : LeaseTable κ τ θ) (event : Event κ τ θ) : LeaseTable κ τ θ :=
  Function.update table event.key event.leaves

@[simp] theorem next_self (table : LeaseTable κ τ θ) (event : Event κ τ θ)
    : table.next event event.key = event.leaves :=
  Function.update_self ..

theorem next_other (apart : key ≠ event.key) : table.next event key = table key :=
  Function.update_of_ne apart ..

/-- The table after some events. -/
def nextAll (table : LeaseTable κ τ θ) (events : List (Event κ τ θ)) : LeaseTable κ τ θ :=
  events.foldl next table

theorem nextAll_append (table : LeaseTable κ τ θ) (events more : List (Event κ τ θ))
    : table.nextAll (events ++ more) = (table.nextAll events).nextAll more :=
  List.foldl_append

/-- Leases that are revoked together are gone. -/
theorem nextAll_revokes (table : LeaseTable κ τ θ) (keys : List κ) (now : θ) (key : κ)
    : table.nextAll (keys.map (fun key => .revoke key now)) key
      = if key ∈ keys then none else table key := by
  induction keys generalizing table with
  | nil => rfl
  | cons first rest ih =>
      refine (ih (table.next (.revoke first now))).trans ?_
      by_cases later : key ∈ rest
      · simp [later]
      · by_cases own : key = first
        · rw [own]
          simp [next, Event.key, Event.leaves]
        · simp [later, own, next, Event.key]

-----------------------------------------------------------------------------------------
-- Last events
-----------------------------------------------------------------------------------------

/-- The last event about a key. -/
def lastOf (key : κ) (events : List (Event κ τ θ)) : Option (Event κ τ θ) :=
  (events.filter (fun event => event.key = key)).getLast?

theorem lastOf_snoc (key : κ) (events : List (Event κ τ θ)) (event : Event κ τ θ)
    : lastOf key (events ++ [event]) = if event.key = key then some event else lastOf key events := by
  unfold lastOf
  by_cases own : event.key = key <;> simp [own]

/-- A table that starts out free says what the last events say. -/
theorem nextAll_eq (events : List (Event κ τ θ)) (key : κ)
    : nextAll (fun _ => none) events key = (lastOf key events).bind Event.leaves := by
  induction events using List.reverseRecOn with
  | nil => rfl
  | append_singleton events event ih =>
      rw [nextAll_append, lastOf_snoc]
      by_cases own : event.key = key
      · rw [if_pos own, ← own]
        exact Function.update_self ..
      · rw [if_neg own, ← ih]
        exact Function.update_of_ne (Ne.symm own) ..

-----------------------------------------------------------------------------------------
-- Legal histories
-----------------------------------------------------------------------------------------

variable [LE θ] [LT θ]

/-- Each event is allowed by the table that the events before it leave. -/
def Legal (table : LeaseTable κ τ θ) : List (Event κ τ θ) → Prop
  | [] => True
  | event :: rest => event.Allowed (table event.key) ∧ (table.next event).Legal rest

theorem legal_append
    : table.Legal (events ++ more) ↔ table.Legal events ∧ (table.nextAll events).Legal more := by
  induction events generalizing table with
  | nil => simp [Legal, nextAll]
  | cons event rest ih =>
      simp only [List.cons_append, Legal, ih, and_assoc]
      rfl

/-- In a legal history every event is allowed when it happens. -/
theorem Legal.allowed (legal : table.Legal (events ++ event :: more))
    : event.Allowed (table.nextAll events event.key) :=
  (legal_append.mp legal).2.1

/-- Distinct keys whose time is over can be revoked together. -/
theorem legal_revokes {keys : List κ} {now : θ} (distinct : keys.Nodup)
    (expired : ∀ key ∈ keys, ∃ token expiry, table key = some (token, expiry) ∧ expiry < now)
    : table.Legal (keys.map (fun key => .revoke key now)) := by
  induction keys generalizing table with
  | nil => trivial
  | cons first rest ih =>
      rw [List.nodup_cons] at distinct
      refine ⟨expired first List.mem_cons_self, ih distinct.2 ?_⟩
      intro key member
      have apart : key ≠ first := by
        rintro rfl
        exact distinct.1 member
      obtain ⟨token, expiry, lease, ended⟩ := expired key (List.mem_cons_of_mem _ member)
      exact ⟨token, expiry, (next_other apart).trans lease, ended⟩

/-- Only a grant leases a key that was free. -/
theorem next_held (silent : event.grants = false) (allowed : event.Allowed (table event.key))
    (held : (table.next event key).isSome = true)
    : (table key).isSome = true := by
  unfold next at held
  by_cases own : key = event.key
  · rw [own] at held ⊢
    rw [Function.update_self] at held
    cases event with
    | grant => cases silent
    | renew =>
        obtain ⟨expiry, lease, _⟩ := allowed
        rw [lease]
        rfl
    | release => cases held
    | revoke => cases held
  · rwa [Function.update_of_ne own] at held

theorem nextAll_held (silent : ∀ event ∈ events, event.grants = false) (legal : table.Legal events)
    (held : (table.nextAll events key).isSome = true)
    : (table key).isSome = true := by
  induction events generalizing table with
  | nil => exact held
  | cons event rest ih =>
      refine next_held (silent event List.mem_cons_self) legal.1 ?_
      exact ih (fun later member => silent later (List.mem_cons_of_mem _ member)) legal.2 held

/-- In a legal history every event is allowed by the last one about its key. -/
theorem Legal.allowed_last
    (legal : Legal (fun _ => none) (events ++ event :: more))
    : event.Allowed ((lastOf event.key events).bind Event.leaves) := by
  rw [← nextAll_eq]
  exact legal.allowed

end LeaseTable

end Lane
