import Mathlib.Data.List.Basic

/-! Bounded channels: what is sent waits in order, and a sender waits while the channel is full. -/

/-- The items that have been sent and not received, never more than the capacity. -/
structure BoundedChannel (α : Type*) (capacity : ℕ) where
  buffer : List α
  fits : buffer.length ≤ capacity

namespace BoundedChannel

variable {α : Type*} {capacity : ℕ}

/-- A channel that nothing has been sent to. -/
def empty : BoundedChannel α capacity := ⟨[], Nat.zero_le _⟩

@[simp] theorem buffer_empty : (empty : BoundedChannel α capacity).buffer = [] := rfl

/-- The channel with one more item, or none while it is full. -/
def send (channel : BoundedChannel α capacity) (item : α)
    : Option (BoundedChannel α capacity) :=
  if room : channel.buffer.length < capacity then
    some ⟨channel.buffer ++ [item], by simpa [Nat.succ_le_iff] using room⟩
  else
    none

/-- The oldest item with the rest of the channel, or none while nothing is there. -/
def receive (channel : BoundedChannel α capacity)
    : Option (α × BoundedChannel α capacity) :=
  match channel with
  | ⟨[], _⟩ => none
  | ⟨item :: rest, fits⟩ => some (item, ⟨rest, Nat.le_of_succ_le fits⟩)

variable {channel after : BoundedChannel α capacity} {item : α}

/-- Sending appends. -/
theorem buffer_of_send (sent : channel.send item = some after)
    : after.buffer = channel.buffer ++ [item] := by
  unfold send at sent
  split at sent
  · cases sent
    rfl
  · cases sent

/-- A sender waits exactly while the channel is full. -/
theorem send_eq_none_iff : channel.send item = none ↔ channel.buffer.length = capacity := by
  have fits := channel.fits
  unfold send
  split
  · rename_i room
    simp [Nat.ne_of_lt room]
  · rename_i full
    simp only [true_iff]
    omega

/-- Receiving takes the first item. -/
theorem buffer_of_receive (received : channel.receive = some (item, after))
    : channel.buffer = item :: after.buffer := by
  obtain ⟨items, fits⟩ := channel
  cases items with
  | nil => cases received
  | cons head rest =>
      cases received
      rfl

/-- There is nothing to receive exactly in an empty channel. -/
theorem receive_eq_none_iff : channel.receive = none ↔ channel.buffer = [] := by
  obtain ⟨items, fits⟩ := channel
  cases items with
  | nil => exact ⟨fun _ => rfl, fun _ => rfl⟩
  | cons head rest =>
      refine ⟨fun nothing => ?_, fun empty => ?_⟩
      · cases nothing
      · cases empty

end BoundedChannel
